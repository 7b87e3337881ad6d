import RendezMix.Library.KeyedLists
import RendezMix.Source.Relay
import RendezMix.Source.Smartlist

/-!
# The EWMA policy

`core/or/circuitmux_ewma.c` with rational numbers in place of doubles; `pow` is
that of the C library. The per-circuit data (`ewma_policy_circ_data_t` and its
`cell_ewma_t`) are kept field by field under the addresses they are allocated
at; freed data are left where they are, since new data get a new address. A failed
assertion is `none`, and so is the use of a `NULL` pointer.
-/
namespace RendezMix.Source.CircuitmuxEwma

open SmartlistPqueue

def torAssert (cond : Prop) [Decidable cond] : Option Unit := if cond then some () else none

abbrev CircRef := Nat

abbrev EwmaRef := Nat

/-- The static variables of the policy, and the coarse clock in milliseconds. -/
structure EwmaGlobals where
  now : Int
  startOfCurrentTick : Int
  currentTickNum : UInt32
  ewmaTickLen : Nat
  ewmaScaleFactor : Rat
  deriving DecidableEq

/-- The data of all circuits. `next` is the next address to be allocated. -/
structure EwmaMemory where
  circ : EwmaRef → CircRef
  lastAdjustedTick : EwmaRef → UInt32
  cellCount : EwmaRef → Rat
  heapIndex : EwmaRef → Int
  next : EwmaRef

structure EwmaPolicyData where
  activeCircuitPqueue : List EwmaRef
  lastRecalibrated : UInt32
  deriving DecidableEq

/-! ## Ticks -/

/-- `monotime_coarse_diff_msec32` of the start of the tick and the present time. -/
def msecDiff (g : EwmaGlobals) : Int := (g.now - g.startOfCurrentTick).bmod (2 ^ 32)

def cellEwmaGetTick (g : EwmaGlobals) : UInt32 :=
  g.currentTickNum + UInt32.ofInt ((msecDiff g).tdiv (1000 * g.ewmaTickLen))

/-- `cell_ewma_get_current_tick_and_fraction`, which may begin a new tick. -/
def cellEwmaGetCurrentTickAndFraction (g : EwmaGlobals) : UInt32 × Rat × EwmaGlobals :=
  let tickMsec : Int := 1000 * g.ewmaTickLen
  if msecDiff g > tickMsec then
    let ticksDifference := (msecDiff g).tdiv tickMsec
    let current := g.currentTickNum + UInt32.ofInt ticksDifference
    (current, ((msecDiff g).tmod tickMsec : Rat) / tickMsec,
      { g with
        startOfCurrentTick := g.startOfCurrentTick + ticksDifference * tickMsec
        currentTickNum := current })
  else (g.currentTickNum, (msecDiff g : Rat) / tickMsec, g)

/-! ## Scaling -/

section Arithmetic

variable (pow : Rat → Rat → Rat)

def getScaleFactor (g : EwmaGlobals) (fromTick toTick : UInt32) : Rat :=
  pow g.ewmaScaleFactor ((toTick - fromTick).toInt32.toInt : Int)

/-- Multiply a count by `factor`, which makes it one of the tick `curTick`. -/
def rescale (mem : EwmaMemory) (ewma : EwmaRef) (factor : Rat) (curTick : UInt32) : EwmaMemory :=
  { mem with
    cellCount := Function.update mem.cellCount ewma (mem.cellCount ewma * factor)
    lastAdjustedTick := Function.update mem.lastAdjustedTick ewma curTick }

def scaleSingleCellEwma (g : EwmaGlobals) (mem : EwmaMemory) (ewma : EwmaRef)
    (curTick : UInt32) : EwmaMemory :=
  rescale mem ewma (getScaleFactor pow g (mem.lastAdjustedTick ewma) curTick) curTick

/-- The loop of `scale_active_circuits`. -/
def scaleEach (recalibrated curTick : UInt32) (factor : Rat) :
    List EwmaRef → EwmaMemory → Option EwmaMemory
  | [], mem => some mem
  | ewma :: rest, mem =>
      if mem.lastAdjustedTick ewma = recalibrated then
        scaleEach recalibrated curTick factor rest (rescale mem ewma factor curTick)
      else none

def scaleActiveCircuits (g : EwmaGlobals) (pol : EwmaPolicyData) (mem : EwmaMemory)
    (curTick : UInt32) : Option (EwmaPolicyData × EwmaMemory) :=
  let factor := getScaleFactor pow g pol.lastRecalibrated curTick
  (scaleEach pol.lastRecalibrated curTick factor pol.activeCircuitPqueue mem).map fun mem =>
    ({ pol with lastRecalibrated := curTick }, mem)

/-! ## The queue of active circuits -/

def compareCellEwmaCounts (mem : EwmaMemory) (e1 e2 : EwmaRef) : Int :=
  if mem.cellCount e1 < mem.cellCount e2 then -1
  else if mem.cellCount e1 > mem.cellCount e2 then 1
  else 0

/-- The queue of a policy, with the positions that its items store. -/
def pqueueOf (pol : EwmaPolicyData) (mem : EwmaMemory) : Pqueue EwmaRef :=
  { list := pol.activeCircuitPqueue, idx := mem.heapIndex }

/-- The policy and the items after an operation on the queue. -/
def withPqueue (pol : EwmaPolicyData) (mem : EwmaMemory) (sl : Pqueue EwmaRef) :
    EwmaPolicyData × EwmaMemory :=
  ({ pol with activeCircuitPqueue := sl.list }, { mem with heapIndex := sl.idx })

def addCellEwma (g : EwmaGlobals) (pol : EwmaPolicyData) (mem : EwmaMemory) (ewma : EwmaRef) :
    Option (EwmaPolicyData × EwmaMemory) :=
  if mem.heapIndex ewma = -1 then
    let mem := scaleSingleCellEwma pow g mem ewma pol.lastRecalibrated
    some (withPqueue pol mem
      (smartlistPqueueAdd (compareCellEwmaCounts mem) (pqueueOf pol mem) ewma))
  else none

def removeCellEwma (pol : EwmaPolicyData) (mem : EwmaMemory) (ewma : EwmaRef) :
    Option (EwmaPolicyData × EwmaMemory) :=
  if mem.heapIndex ewma ≠ -1 then
    (smartlistPqueueRemove (compareCellEwmaCounts mem) (pqueueOf pol mem) ewma).map
      (withPqueue pol mem)
  else none

def popFirstCellEwma (pol : EwmaPolicyData) (mem : EwmaMemory) :
    Option (EwmaRef × EwmaPolicyData × EwmaMemory) :=
  (smartlistPqueuePop (compareCellEwmaCounts mem) (pqueueOf pol mem)).map fun popped =>
    (popped.1, withPqueue pol mem popped.2)

/-! ## The methods of the policy -/

def ewmaAllocCmuxData (g : EwmaGlobals) : EwmaPolicyData :=
  { activeCircuitPqueue := [], lastRecalibrated := cellEwmaGetTick g }

/-- The new data are at the address `mem.next`. -/
def ewmaAllocCircData (g : EwmaGlobals) (mem : EwmaMemory) (circ : CircRef) : EwmaMemory :=
  { circ := Function.update mem.circ mem.next circ
    lastAdjustedTick := Function.update mem.lastAdjustedTick mem.next (cellEwmaGetTick g)
    cellCount := Function.update mem.cellCount mem.next 0
    heapIndex := Function.update mem.heapIndex mem.next (-1)
    next := mem.next + 1 }

def ewmaNotifyCircActive (g : EwmaGlobals) (pol : EwmaPolicyData) (mem : EwmaMemory)
    (cdata : EwmaRef) : Option (EwmaPolicyData × EwmaMemory) :=
  addCellEwma pow g pol mem cdata

def ewmaNotifyCircInactive (pol : EwmaPolicyData) (mem : EwmaMemory) (cdata : EwmaRef) :
    Option (EwmaPolicyData × EwmaMemory) :=
  removeCellEwma pol mem cdata

/-- The counts are brought to the present tick. -/
def rescaleIfNeeded (g : EwmaGlobals) (pol : EwmaPolicyData) (mem : EwmaMemory)
    (tick : UInt32) : Option (EwmaPolicyData × EwmaMemory) :=
  if tick ≠ pol.lastRecalibrated then scaleActiveCircuits pow g pol mem tick
  else some (pol, mem)

/-- A circuit's count after `nCells` more cells. -/
def addToCount (mem : EwmaMemory) (cdata : EwmaRef) (increment : Rat) : EwmaMemory :=
  { mem with cellCount := Function.update mem.cellCount cdata (mem.cellCount cdata + increment) }

def ewmaNotifyXmitCells (g : EwmaGlobals) (pol : EwmaPolicyData) (mem : EwmaMemory)
    (cdata : EwmaRef) (nCells : UInt32) :
    Option (EwmaGlobals × EwmaPolicyData × EwmaMemory) := do
  torAssert (nCells > 0)
  let (tick, fractionalTick, g) := cellEwmaGetCurrentTickAndFraction g
  let (pol, mem) ← rescaleIfNeeded pow g pol mem tick
  let ewmaIncrement := (nCells.toNat : Rat) * pow g.ewmaScaleFactor (-fractionalTick)
  let mem := addToCount mem cdata ewmaIncrement
  let (tmp, pol, mem) ← popFirstCellEwma pol mem
  torAssert (tmp = cdata)
  let (pol, mem) ← addCellEwma pow g pol mem cdata
  return (g, pol, mem)

def ewmaPickActiveCircuit (pol : EwmaPolicyData) (mem : EwmaMemory) : Option CircRef :=
  pol.activeCircuitPqueue.head?.map mem.circ

end Arithmetic

end RendezMix.Source.CircuitmuxEwma

/-!
# Circuit muxes

`core/or/circuitmux.c` with the EWMA policy, the only one there is. The hash table
of a mux is the list of its entries in the order in which an iteration would meet
them. As in the policy, `none` is a failed assertion or the use of a `NULL`
pointer. What other modules know of channels and circuits is an `Environment`.
-/
namespace RendezMix.Source.Circuitmux

open Library CircuitmuxEwma

/-- `circuit_muxinfo_t` -/
structure MuxInfo where
  cellCount : UInt32
  direction : CellDirection
  policyData : Option EwmaRef
  deriving DecidableEq

/-- `chanid_circid_muxinfo_t` -/
structure MapEntry where
  chanId : UInt64
  circId : UInt32
  muxinfo : MuxInfo
  deriving DecidableEq

/-- What the mux reads of a circuit. Channels are given by their identifiers, and
cell queues by their lengths. The last three fields are those of an or-circuit. -/
structure MuxCircuit where
  magic : CircuitMagic
  nChan : Option UInt64
  nCircId : UInt32
  nChanCells : UInt32
  pChan : Option UInt64
  pCircId : UInt32
  pChanCells : UInt32
  deriving DecidableEq

/-- The circuits, `channel_find_by_global_id`, and
`circuit_get_by_circid_channel_even_if_marked`. -/
structure Environment where
  circuit : CircRef → MuxCircuit
  channelExists : UInt64 → Bool
  circidMap : UInt64 → UInt32 → Option CircRef

structure DestroyCell where
  circid : UInt32
  reason : UInt8
  deriving DecidableEq

/-- `circuitmux_t`; the policy is `some` of its data or `NULL`. -/
structure CircuitMux where
  nCircuits : UInt32
  nActiveCircuits : UInt32
  nCells : UInt32
  chanidCircidMap : List MapEntry
  policy : Option EwmaPolicyData
  destroyCellQueue : List DestroyCell
  lastCellWasDestroy : Bool
  destroyCtr : Int
  deriving DecidableEq

/-- A mux and the policy's data of its circuits. -/
structure MuxState where
  mux : CircuitMux
  mem : EwmaMemory
  globals : EwmaGlobals

def circuitmuxAlloc : CircuitMux :=
  { nCircuits := 0, nActiveCircuits := 0, nCells := 0, chanidCircidMap := [], policy := none
    destroyCellQueue := [], lastCellWasDestroy := false, destroyCtr := 0 }

/-! ## The hash table -/

/-- What `chanid_circid_entries_eq` compares. -/
def MapEntry.key (e : MapEntry) : UInt64 × UInt32 := (e.chanId, e.circId)

def MapEntry.withCount (e : MapEntry) (n : UInt32) : MapEntry :=
  { e with muxinfo := { e.muxinfo with cellCount := n } }

def MapEntry.withPolicyData (e : MapEntry) (cdata : Option EwmaRef) : MapEntry :=
  { e with muxinfo := { e.muxinfo with policyData := cdata } }

def htFind (mux : CircuitMux) (chanId : UInt64) (circId : UInt32) : Option MapEntry :=
  KeyedLists.find MapEntry.key (chanId, circId) mux.chanidCircidMap

/-- Write the fields of an entry of the table. -/
def writeEntry (mux : CircuitMux) (e : MapEntry) : CircuitMux :=
  { mux with chanidCircidMap := KeyedLists.replace MapEntry.key e mux.chanidCircidMap }

def htInsert (mux : CircuitMux) (e : MapEntry) : CircuitMux :=
  { mux with chanidCircidMap := e :: mux.chanidCircidMap }

def htRemove (mux : CircuitMux) (e : MapEntry) : CircuitMux :=
  { mux with chanidCircidMap := KeyedLists.remove MapEntry.key e.key mux.chanidCircidMap }

/-- The entry of a circuit in its role on `n_chan`. -/
def findOutbound (mux : CircuitMux) (c : MuxCircuit) : Option MapEntry :=
  c.nChan.bind fun chan => htFind mux chan c.nCircId

/-- The entry of an or-circuit in its role on `p_chan`. -/
def findInbound (mux : CircuitMux) (c : MuxCircuit) : Option MapEntry :=
  if c.magic = .orCircuit then c.pChan.bind fun chan => htFind mux chan c.pCircId else none

/-- The result is `some none` where the C code returns `NULL`. -/
def circuitmuxFindMapEntry (env : Environment) (mux : CircuitMux) (circ : CircRef) :
    Option (Option MapEntry) :=
  match findOutbound mux (env.circuit circ) with
  | some hashent => do
      torAssert (hashent.muxinfo.direction = .outbound)
      return some hashent
  | none =>
      match findInbound mux (env.circuit circ) with
      | some hashent => do
          torAssert (hashent.muxinfo.direction = .inbound)
          return some hashent
      | none => some none

/-! ## Activity -/

section Policy

variable (pow : Rat → Rat → Rat)

def circuitmuxMakeCircuitActive (env : Environment) (s : MuxState) (circ : CircRef) :
    Option MuxState := do
  let pol ← s.mux.policy
  let hashent ← (← circuitmuxFindMapEntry env s.mux circ)
  let cdata ← hashent.muxinfo.policyData
  let (pol, mem) ← ewmaNotifyCircActive pow s.globals pol s.mem cdata
  return { s with mux := { s.mux with policy := some pol }, mem := mem }

def circuitmuxMakeCircuitInactive (env : Environment) (s : MuxState) (circ : CircRef) :
    Option MuxState := do
  let pol ← s.mux.policy
  let hashent ← (← circuitmuxFindMapEntry env s.mux circ)
  let cdata ← hashent.muxinfo.policyData
  let (pol, mem) ← ewmaNotifyCircInactive pol s.mem cdata
  return { s with mux := { s.mux with policy := some pol }, mem := mem }

def countActive (s : MuxState) : MuxState :=
  { s with mux := { s.mux with nActiveCircuits := s.mux.nActiveCircuits + 1 } }

def countInactive (s : MuxState) : MuxState :=
  { s with mux := { s.mux with nActiveCircuits := s.mux.nActiveCircuits - 1 } }

/-- What `circuitmux_attach_circuit` and `circuitmux_set_num_cells` do when the
number of cells of an attached circuit changes from `old` to `new`. -/
def changeActivity (env : Environment) (s : MuxState) (circ : CircRef) (old new : UInt32) :
    Option MuxState :=
  if old > 0 ∧ new = 0 then circuitmuxMakeCircuitInactive env (countInactive s) circ
  else if old = 0 ∧ new > 0 then circuitmuxMakeCircuitActive pow env (countActive s) circ
  else some s

/-! ## Attaching and detaching -/

/-- The channel, the number of cells and the circuit id of one side of a circuit. -/
def sideOf (c : MuxCircuit) (direction : CellDirection) :
    Option (Option UInt64 × UInt32 × UInt32) :=
  match direction with
  | .outbound => some (c.nChan, c.nChanCells, c.nCircId)
  | .inbound => do
      torAssert (c.magic = .orCircuit)
      return (c.pChan, c.pChanCells, c.pCircId)

/-- A circuit that is already attached gets its new number of cells. -/
def reattach (env : Environment) (s : MuxState) (circ : CircRef) (direction : CellDirection)
    (cellCount : UInt32) (hashent : MapEntry) : Option MuxState := do
  torAssert (hashent.muxinfo.direction = direction)
  let s ← changeActivity pow env s circ hashent.muxinfo.cellCount cellCount
  let mux : CircuitMux := { s.mux with nCells := s.mux.nCells - hashent.muxinfo.cellCount + cellCount }
  return { s with mux := writeEntry mux (hashent.withCount cellCount) }

/-- A new circuit gets an entry and policy data. -/
def insertCircuit (s : MuxState) (circ : CircRef) (direction : CellDirection)
    (chanId : UInt64) (cellCount circId : UInt32) : Option MuxState := do
  let _ ← s.mux.policy
  let hashent := MapEntry.mk chanId circId ⟨cellCount, direction, some s.mem.next⟩
  let mux := htInsert s.mux hashent
  return { s with
    mux := { mux with nCircuits := mux.nCircuits + 1 }
    mem := ewmaAllocCircData s.globals s.mem circ }

def circuitmuxAttachCircuit (env : Environment) (s : MuxState) (circ : CircRef)
    (direction : CellDirection) : Option MuxState := do
  let (chan, cellCount, circId) ← sideOf (env.circuit circ) direction
  let channelId ← chan
  torAssert (circId ≠ 0)
  match htFind s.mux channelId circId with
  | some hashent => reattach pow env s circ direction cellCount hashent
  | none => do
      let s ← insertCircuit s circ direction channelId cellCount circId
      let s ← if cellCount > 0 then circuitmuxMakeCircuitActive pow env (countActive s) circ
        else some s
      return { s with mux := { s.mux with nCells := s.mux.nCells + cellCount } }

/-- The search of `circuitmux_detach_circuit`: the entry, if any, and the direction
searched last. -/
def detachSearch (mux : CircuitMux) (c : MuxCircuit) :
    Option MapEntry × Option CellDirection :=
  match findOutbound mux c with
  | some hashent => (some hashent, some .outbound)
  | none =>
      if c.magic = .orCircuit ∧ c.pChan.isSome then (findInbound mux c, some .inbound)
      else (none, c.nChan.map fun _ => .outbound)

def circuitmuxDetachCircuit (env : Environment) (s : MuxState) (circ : CircRef) :
    Option MuxState := do
  let (found, searched) := detachSearch s.mux (env.circuit circ)
  let lastSearchedDirection ← searched
  match found with
  | none => some s
  | some hashent => do
      let s := { s with mux := { s.mux with nCircuits := s.mux.nCircuits - 1 } }
      let s ← if hashent.muxinfo.cellCount > 0 then
          circuitmuxMakeCircuitInactive env (countInactive s) circ
        else some s
      let mux : CircuitMux := { s.mux with nCells := s.mux.nCells - hashent.muxinfo.cellCount }
      torAssert (hashent.muxinfo.policyData = none ∨ mux.policy ≠ none)
      torAssert (lastSearchedDirection = hashent.muxinfo.direction)
      return { s with mux := htRemove mux hashent }

/-! ## Numbers of cells -/

def circuitmuxSetNumCells (env : Environment) (s : MuxState) (circ : CircRef)
    (nCells : UInt32) : Option MuxState := do
  let hashent ← (← circuitmuxFindMapEntry env s.mux circ)
  let _ ← s.mux.policy
  let mux : CircuitMux := { s.mux with nCells := s.mux.nCells - hashent.muxinfo.cellCount + nCells }
  let s := { s with mux := writeEntry mux (hashent.withCount nCells) }
  changeActivity pow env s circ hashent.muxinfo.cellCount nCells

/-- The part of `circuitmux_notify_xmit_cells` before the circuit may become inactive. -/
def noteXmit (s : MuxState) (hashent : MapEntry) (nCells : UInt32) : Option MuxState := do
  torAssert (nCells ≤ hashent.muxinfo.cellCount)
  let mux : CircuitMux := { s.mux with nCells := s.mux.nCells - nCells }
  let mux := writeEntry mux (hashent.withCount (hashent.muxinfo.cellCount - nCells))
  let pol ← mux.policy
  let cdata ← hashent.muxinfo.policyData
  let (globals, pol, mem) ← ewmaNotifyXmitCells pow s.globals pol s.mem cdata nCells
  return { mux := { mux with policy := some pol }, mem := mem, globals := globals }

def circuitmuxNotifyXmitCells (env : Environment) (s : MuxState) (circ : CircRef)
    (nCells : UInt32) : Option MuxState :=
  if nCells = 0 then some s
  else do
    let hashent ← (← circuitmuxFindMapEntry env s.mux circ)
    let s ← noteXmit pow s hashent nCells
    if hashent.muxinfo.cellCount - nCells = 0 then
      circuitmuxMakeCircuitInactive env (countInactive s) circ
    else some s

/-! ## All circuits at once -/

/-- One round of `circuitmux_detach_all_circuits`, for the entry that is met first. -/
def detachOne (env : Environment) (s : MuxState) (toRemove : MapEntry)
    (detachedOut : List CircRef) : Option (MuxState × List CircRef) := do
  let circ := if env.channelExists toRemove.chanId then
    env.circidMap toRemove.chanId toRemove.circId else none
  match circ with
  | none => do
      torAssert (toRemove.muxinfo.policyData = none)
      return (s, detachedOut)
  | some circ => do
      let cleared := toRemove.muxinfo.direction = .outbound
        ∨ (env.circuit circ).magic = .orCircuit
      let s ← if cleared ∧ toRemove.muxinfo.cellCount > 0 then
          circuitmuxMakeCircuitInactive env s circ
        else some s
      torAssert (toRemove.muxinfo.policyData = none ∨ s.mux.policy ≠ none)
      return (s, if cleared then detachedOut ++ [circ] else detachedOut)

/-- The loop, in which the entries left are all there are in the table. -/
def detachEach (env : Environment) :
    List MapEntry → MuxState → List CircRef → Option (MuxState × List CircRef)
  | [], s, detachedOut => some (s, detachedOut)
  | toRemove :: rest, s, detachedOut => do
      let (s, detachedOut) ← detachOne env s toRemove detachedOut
      detachEach env rest { s with mux := { s.mux with chanidCircidMap := rest } } detachedOut

def circuitmuxDetachAllCircuits (env : Environment) (s : MuxState) :
    Option (MuxState × List CircRef) := do
  let (s, detachedOut) ← detachEach env s.mux.chanidCircidMap s []
  return ({ s with mux := { s.mux with nCircuits := 0, nActiveCircuits := 0, nCells := 0 } },
    detachedOut)

/-- The policies between which `circuitmux_set_policy` moves the circuits. -/
structure Switch where
  oldPol : Option EwmaPolicyData
  newPol : Option EwmaPolicyData
  mem : EwmaMemory

/-- Take an entry out of the old policy. -/
def leaveOld (sw : Switch) (e : MapEntry) : Option Switch := do
  let sw ← match sw.oldPol with
    | some pol =>
        if e.muxinfo.cellCount > 0 then do
          let cdata ← e.muxinfo.policyData
          let (pol, mem) ← ewmaNotifyCircInactive pol sw.mem cdata
          return { sw with oldPol := some pol, mem := mem }
        else some sw
    | none => some sw
  torAssert (e.muxinfo.policyData = none ∨ sw.oldPol ≠ none)
  return sw

/-- Bring an entry, whose policy data are freed, into the new policy. -/
def joinNew (g : EwmaGlobals) (sw : Switch) (circ : CircRef) (e : MapEntry) :
    Option (Switch × MapEntry) :=
  match sw.newPol with
  | none => some (sw, e.withPolicyData none)
  | some pol => do
      let cdata := sw.mem.next
      let mem := ewmaAllocCircData g sw.mem circ
      if e.muxinfo.cellCount > 0 then do
        let (pol, mem) ← ewmaNotifyCircActive pow g pol mem cdata
        return ({ sw with newPol := some pol, mem := mem }, e.withPolicyData (some cdata))
      else return ({ sw with mem := mem }, e.withPolicyData (some cdata))

def switchOne (env : Environment) (g : EwmaGlobals) (sw : Switch) (e : MapEntry) :
    Option (Switch × MapEntry) := do
  torAssert (env.channelExists e.chanId)
  let circ ← env.circidMap e.chanId e.circId
  let sw ← leaveOld sw e
  joinNew pow g sw circ e

/-- The loop of `circuitmux_set_policy`; the second result are the entries afterwards. -/
def switchEach (env : Environment) (g : EwmaGlobals) :
    List MapEntry → Switch → Option (Switch × List MapEntry)
  | [], sw => some (sw, [])
  | e :: rest, sw => do
      let (sw, e) ← switchOne pow env g sw e
      let (sw, rest) ← switchEach env g rest sw
      return (sw, e :: rest)

/-- `ewma` tells whether the new policy is `&ewma_policy` or `NULL`. -/
def circuitmuxSetPolicy (env : Environment) (s : MuxState) (ewma : Bool) : Option MuxState :=
  if s.mux.policy.isSome = ewma then some s
  else do
    let newPol := if ewma then some (ewmaAllocCmuxData s.globals) else none
    let (sw, entries) ← switchEach pow env s.globals s.mux.chanidCircidMap
      ⟨s.mux.policy, newPol, s.mem⟩
    return { s with
      mux := { s.mux with policy := sw.newPol, chanidCircidMap := entries }
      mem := sw.mem }

/-! ## The choice of what to send -/

/-- The circuit to send from, and whether the destroy queue is to be sent from. -/
def circuitmuxGetFirstActiveCircuit (s : MuxState) :
    Option (Option CircRef × Bool × MuxState) := do
  let pol ← s.mux.policy
  if s.mux.destroyCellQueue ≠ [] ∧ (!s.mux.lastCellWasDestroy ∨ s.mux.nActiveCircuits = 0) then
    return (none, true, { s with mux := { s.mux with lastCellWasDestroy := true } })
  else if s.mux.nActiveCircuits > 0 then do
    torAssert (s.mux.nCells > 0)
    return (ewmaPickActiveCircuit pol s.mem, false,
      { s with mux := { s.mux with lastCellWasDestroy := false } })
  else do
    torAssert (s.mux.nCells = 0)
    torAssert (s.mux.destroyCellQueue = [])
    return (none, false, s)

def circuitmuxNotifyXmitDestroy (mux : CircuitMux) : CircuitMux :=
  { mux with destroyCtr := mux.destroyCtr - 1 }

/-- `circuitmux_append_destroy_cell` up to the test whether the channel has queued writes. -/
def destroyCellQueueAppend (mux : CircuitMux) (circId : UInt32) (reason : UInt8) : CircuitMux :=
  { mux with
    destroyCellQueue := mux.destroyCellQueue ++ [⟨circId, reason⟩]
    destroyCtr := mux.destroyCtr + 1 }

end Policy

end RendezMix.Source.Circuitmux
