import RendezMix.Source.Cells

/-!
# The state of a relay

Circuits, delay timers and their argument blocks live on a heap of addresses;
an address is allocated once and its entry is removed when it is freed. The
fields that exist once per direction (`n_chan` and `p_chan`, `n_delay_queue`
and `p_delay_queue`, ...) are the fields of a `Hop`. The `log` records what the
functions do and is read by none of them.

Left out, because no modelled function's queue, timer or memory effect depends
on it: the circuit map, the cell scheduler and the circuitmux, `n_hop`,
`rend_splice` (its peer is marked by a step of its own), circuit purposes and
states, the Markov delay states.
-/
namespace RendezMix.Source

abbrev CircPtr := Ptr
abbrev ChanPtr := Ptr
abbrev TimerPtr := Ptr
abbrev InfoPtr := Ptr
abbrev ConnPtr := Ptr

/-- The part of `channel_t` that the cell path reads. -/
structure Channel where
  wideCircIds : Bool
  identityDigest : List UInt8
  isIpv6 : Bool
  deriving DecidableEq, Repr

/-- `delay_policy_t`, with the doubles read as rational numbers. -/
structure DelayPolicy where
  mode : UInt8
  param1 : ℚ
  param2 : ℚ
  max : ℚ
  deriving DecidableEq, Repr

def delayModeNone : UInt8 := 0
def delayModeAuto : UInt8 := 1
def delayModeUniform : UInt8 := 2
def delayModeNormal : UInt8 := 3
def delayModeLognormal : UInt8 := 4
def delayModeExponential : UInt8 := 5
def delayModePoisson : UInt8 := 6
def delayModeMarkov : UInt8 := 7

/-- What stays fixed while a relay runs: consensus parameters, with the ranges
`networkstatus_get_param` clips them to, options, and the channels. -/
structure Config where
  maxCircuitCellQueueSize : Nat
  maxCircuitCellQueueSizeOut : Nat
  cellQueueHighwatermark : Nat
  cellQueueLowwatermark : Nat
  autoDelayPolicy : DelayPolicy
  disableDelays : Bool
  channel : ChanPtr → Channel
  queueSize_min : 50 ≤ maxCircuitCellQueueSize ∧ 50 ≤ maxCircuitCellQueueSizeOut
  highwatermark_range : 1 ≤ cellQueueHighwatermark ∧ cellQueueHighwatermark ≤ 1000
  lowwatermark_range : 1 ≤ cellQueueLowwatermark ∧ cellQueueLowwatermark ≤ 1000

/-- The per-direction fields of a circuit: `n_*` outbound, `p_*` inbound. -/
structure Hop where
  chan : Option ChanPtr
  circId : UInt32
  chanCells : CellQueue
  streamsBlocked : Bool
  delayQueue : CellQueue
  delayTimer : Option TimerPtr
  lastReadyTv : Timeval
  deriving DecidableEq, Repr

/-- An `edge_connection_t` on the circuit's stream list. -/
structure Edge where
  conn : ConnPtr
  streamId : UInt16
  edgeBlockedOnCirc : Bool
  readEvent : Bool
  reading : Bool
  deriving DecidableEq, Repr

/-- `OR_CIRCUIT_MAGIC` and `ORIGIN_CIRCUIT_MAGIC`. -/
inductive CircuitMagic
  | orCircuit
  | originCircuit
  deriving DecidableEq, Repr

/-- `closeHeld` stands for the two tests that may make `circuit_mark_for_close`
return early on an origin circuit. -/
structure Circuit where
  magic : CircuitMagic
  markedForClose : Bool
  n : Hop
  p : Hop
  delayPolicyIsSet : Bool
  delayPolicy : DelayPolicy
  streams : List Edge
  halfStreams : Nat
  closeHeld : Bool
  deriving DecidableEq, Repr

namespace Circuit

def hop (circ : Circuit) : CellDirection → Hop
  | .outbound => circ.n
  | .inbound => circ.p

def setHop (circ : Circuit) (d : CellDirection) (hop : Hop) : Circuit :=
  match d with
  | .outbound => { circ with n := hop }
  | .inbound => { circ with p := hop }

section

variable (circ : Circuit) (d : CellDirection) (hop : Hop)

@[simp] theorem hop_setHop : (circ.setHop d hop).hop d = hop := by
  cases d <;> rfl

theorem hop_setHop_of_ne (e : CellDirection) (hop : Hop) (ne : e ≠ d) :
    (circ.setHop d hop).hop e = circ.hop e := by
  cases d <;> cases e <;> first | rfl | exact absurd rfl ne

@[simp] theorem setHop_magic : (circ.setHop d hop).magic = circ.magic := by
  cases d <;> rfl

@[simp] theorem setHop_markedForClose :
    (circ.setHop d hop).markedForClose = circ.markedForClose := by
  cases d <;> rfl

@[simp] theorem setHop_streams : (circ.setHop d hop).streams = circ.streams := by
  cases d <;> rfl

end

/-- The cells the circuit holds for one direction, in circuit order. -/
def held (circ : Circuit) (d : CellDirection) : List PackedCell :=
  (circ.hop d).chanCells ++ (circ.hop d).delayQueue

end Circuit

structure DelayInfo where
  circ : CircPtr
  direction : CellDirection
  deriving DecidableEq, Repr

/-- When a scheduled timer was armed, and with which delay. -/
structure Armed where
  armedAt : Timeval
  delay : Timeval
  deriving DecidableEq, Repr

/-- A `tor_timer_t` whose callback is `cell_ready_callback`. -/
structure TorTimer where
  arg : InfoPtr
  pending : Option Armed
  deriving DecidableEq, Repr

inductive Fault
  | useAfterFree (ptr : Ptr)
  | doubleFree (ptr : Ptr)
  | nullDereference
  deriving DecidableEq, Repr

inductive Event
  | accepted (c : CircPtr) (d : CellDirection) (chan : ChanPtr) (circId : UInt32)
      (copy : PackedCell)
  | released (c : CircPtr) (d : CellDirection) (chan : ChanPtr) (circId : UInt32)
      (now : Timeval) (cell : PackedCell)
  | written (c : CircPtr) (d : CellDirection) (chan : ChanPtr) (circId : UInt32)
      (cell : PackedCell)
  | writeFailed (c : CircPtr) (d : CellDirection) (cell : PackedCell)
  | cleared (c : CircPtr) (d : CellDirection) (cells : List PackedCell)
  | bytesWritten (c : CircPtr) (d : CellDirection) (cells : Nat) (bytes : Nat) (isIpv6 : Bool)
  | markForClose (c : CircPtr) (circ : Circuit)
  | armed (c : CircPtr) (d : CellDirection) (armed : Armed)
  | unscheduled (info : InfoPtr)
  | fault (kind : Fault)
  deriving DecidableEq, Repr

/-- The heap of one relay process, and the record of what it did. -/
structure Relay where
  circuits : CircPtr → Option Circuit
  timers : TimerPtr → Option TorTimer
  delayInfos : InfoPtr → Option DelayInfo
  brk : Ptr
  log : List Event

namespace Relay

def emit (r : Relay) (event : Event) : Relay := { r with log := r.log ++ [event] }

def emitAll (r : Relay) (events : List Event) : Relay := { r with log := r.log ++ events }

def fault (r : Relay) (kind : Fault) : Relay := r.emit (.fault kind)

def setCircuit (r : Relay) (c : CircPtr) (circ : Circuit) : Relay :=
  { r with circuits := Function.update r.circuits c (some circ) }

def setTimer (r : Relay) (t : TimerPtr) (timer : Option TorTimer) : Relay :=
  { r with timers := Function.update r.timers t timer }

def setDelayInfo (r : Relay) (i : InfoPtr) (info : Option DelayInfo) : Relay :=
  { r with delayInfos := Function.update r.delayInfos i info }

section

variable (r : Relay) (i : InfoPtr) (c : CircPtr) (event : Event) (events : List Event)
  (info : Option DelayInfo) (circ : Circuit)

@[simp] theorem emit_log : (r.emit event).log = r.log ++ [event] := rfl

@[simp] theorem emitAll_log : (r.emitAll events).log = r.log ++ events := rfl

@[simp] theorem emit_circuits : (r.emit event).circuits = r.circuits := rfl

@[simp] theorem emitAll_circuits : (r.emitAll events).circuits = r.circuits := rfl

section

variable (t : TimerPtr) (timer : Option TorTimer) (f : Circuit → Relay)

@[simp] theorem fault_circuits (kind : Fault) : (r.fault kind).circuits = r.circuits := rfl

@[simp] theorem setCircuit_log : (r.setCircuit c circ).log = r.log := rfl

@[simp] theorem setCircuit_circuits :
    (r.setCircuit c circ).circuits = Function.update r.circuits c (some circ) := rfl

@[simp] theorem setTimer_circuits : (r.setTimer t timer).circuits = r.circuits := rfl

@[simp] theorem setTimer_log : (r.setTimer t timer).log = r.log := rfl

@[simp] theorem setDelayInfo_circuits : (r.setDelayInfo i info).circuits = r.circuits := rfl

@[simp] theorem setDelayInfo_log : (r.setDelayInfo i info).log = r.log := rfl

@[simp] theorem emit_brk : (r.emit event).brk = r.brk := rfl

@[simp] theorem emitAll_brk : (r.emitAll events).brk = r.brk := rfl

@[simp] theorem setCircuit_brk : (r.setCircuit c circ).brk = r.brk := rfl

@[simp] theorem setDelayInfo_brk : (r.setDelayInfo i info).brk = r.brk := rfl

/-- Run a function on a circuit that must be allocated. -/
def withCircuit (r : Relay) (c : CircPtr) (f : Circuit → Relay) : Relay :=
  match r.circuits c with
  | none => r.fault (.useAfterFree c)
  | some circ => f circ

theorem withCircuit_some (live : r.circuits c = some circ) : r.withCircuit c f = f circ := by
  simp only [withCircuit, live]

theorem withCircuit_none (freed : r.circuits c = none) :
    r.withCircuit c f = r.fault (.useAfterFree c) := by
  simp only [withCircuit, freed]

end

end

end Relay
end RendezMix.Source
