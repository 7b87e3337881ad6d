import RendezMix.Library.Runs
import RendezMix.Source.CircuitList

/-!
# The relay as a transition system

One step is one call that the main loop, a channel or the timer backend makes
into the cell path. A handler that makes several such calls is a run of several
steps. `Enabled` states what the callers of each function check before they
call it; scheduling, clocks, samples and write failures are free.
-/
namespace RendezMix.Source
open Library.Runs

inductive Op
  /-- `command_process_create_cell` makes a circuit with the policy that the
  create cell carried, if it carried one. -/
  | createOr (chan : ChanPtr) (circId : UInt32) (policy : Option DelayPolicy)
  | createOrigin (closeHeld : Bool) (halfStreams : Nat)
  | attachStream (c : CircPtr) (edge : Edge)
  | append (c : CircPtr) (chan : ChanPtr) (cell : Cell) (d : CellDirection)
      (fromstream : UInt16) (env : AppendEnv)
  | fire (t : TimerPtr) (now scheduleNow : ClockReading)
  | flush (c : CircPtr) (chan : ChanPtr) (writeOk : Bool)
  | truncate (c : CircPtr)
  /-- `circuit_deliver_create_cell` gives the circuit a next hop. The create
  cell it then queues is an append. -/
  | connect (c : CircPtr) (chan : ChanPtr) (circId : UInt32)
  | mark (c : CircPtr)
  | unlink (c : CircPtr) (d : CellDirection)
  | close (c : CircPtr)

/-- A direction with no channel yet. -/
def Hop.init (chan : Option ChanPtr) (circId : UInt32) : Hop where
  chan := chan
  circId := circId
  chanCells := []
  streamsBlocked := false
  delayQueue := []
  delayTimer := none
  lastReadyTv := ⟨0, 0⟩

/-- `delay_policy_t` as `tor_malloc_zero` leaves it. -/
def DelayPolicy.zero : DelayPolicy := ⟨0, 0, 0, 0⟩

/-- `or_circuit_new`, with the policy that `command_process_create_cell` copies. -/
def orCircuitNew (cfg : Config) (chan : ChanPtr) (circId : UInt32)
    (policy : Option DelayPolicy) : Circuit where
  magic := .orCircuit
  markedForClose := false
  n := Hop.init none 0
  p := Hop.init (some chan) circId
  delayPolicyIsSet := !cfg.disableDelays && policy.isSome
  delayPolicy :=
    match policy with
    | some policy => if cfg.disableDelays then DelayPolicy.zero else policy
    | none => DelayPolicy.zero
  streams := []
  halfStreams := 0
  closeHeld := false

def originCircuitNew (closeHeld : Bool) (halfStreams : Nat) : Circuit where
  magic := .originCircuit
  markedForClose := false
  n := Hop.init none 0
  p := Hop.init none 0
  delayPolicyIsSet := false
  delayPolicy := DelayPolicy.zero
  streams := []
  halfStreams := halfStreams
  closeHeld := closeHeld

/-- Put a new circuit on the heap. -/
def allocCircuit (circ : Circuit) (r : Relay) : Relay :=
  { r with brk := r.brk + 1 }.setCircuit r.brk circ

def attachStream (c : CircPtr) (edge : Edge) (r : Relay) : Relay :=
  r.withCircuit c fun circ => r.setCircuit c { circ with streams := edge :: circ.streams }

def exec (cfg : Config) : Op → Relay → Relay
  | .createOr chan circId policy => allocCircuit (orCircuitNew cfg chan circId policy)
  | .createOrigin closeHeld halfStreams => allocCircuit (originCircuitNew closeHeld halfStreams)
  | .attachStream c edge => attachStream c edge
  | .append c chan cell d fromstream env =>
    appendCellToCircuitQueue cfg c chan cell d fromstream env
  | .fire t now scheduleNow => fireTimer t now scheduleNow
  | .flush c chan writeOk => channelFlushCircuit cfg c chan writeOk
  | .truncate c => truncateNextHop cfg c
  | .connect c chan circId => circuitSetCircidChan c .outbound circId (some chan)
  | .mark c => circuitMarkForClose cfg c
  | .unlink c d => circuitUnlinkFromChannel cfg c d
  | .close c => closeCircuit c

/-- A next hop is never the previous one: `circuit_extend_lspec_valid_helper`
refuses an EXTEND to the identity of `p_chan`. -/
def extendAllowed (cfg : Config) (circ : Circuit) (chan : ChanPtr) : Prop :=
  ∀ pChan ∈ circ.p.chan,
    (cfg.channel pChan).identityDigest ≠ (cfg.channel chan).identityDigest

instance (cfg : Config) (circ : Circuit) (chan : ChanPtr) :
    Decidable (extendAllowed cfg circ chan) :=
  inferInstanceAs (Decidable (∀ _ ∈ _, _))

/-- What the callers guarantee about the circuit and the environment. -/
def Enabled (cfg : Config) (r : Relay) : Op → Prop
  | .createOr _ _ _ => True
  | .createOrigin _ _ => True
  | .attachStream c _ => ∃ circ ∈ r.circuits c, circ.markedForClose = false
  | .append c chan cell d _ env =>
    (∃ circ ∈ r.circuits c, (circ.hop d).chan = some chan ∧
      cell.circId = (circ.hop d).circId ∧ (d = .inbound → circ.magic = .orCircuit) ∧
      delayAccepted (effectivePolicy cfg circ) env.sample) ∧
    ∀ kills ∈ env.oomKills, ∀ k ∈ kills, (r.circuits k).isSome
  | .fire t _ _ => ∃ timer ∈ r.timers t, timer.pending.isSome
  | .flush c chan _ => ∃ circ ∈ r.circuits c,
      circ.n.chan = some chan ∨ (circ.magic = .orCircuit ∧ circ.p.chan = some chan)
  | .truncate c => ∃ circ ∈ r.circuits c, circ.magic = .orCircuit ∧ circ.markedForClose = false
  | .connect c chan _ => ∃ circ ∈ r.circuits c, circ.markedForClose = false ∧
      circ.n.chan = none ∧ extendAllowed cfg circ chan
  | .mark c => (r.circuits c).isSome
  | .unlink c d => ∃ circ ∈ r.circuits c, (circ.hop d).chan.isSome
  | .close c => (r.circuits c).isSome

instance Enabled.decidable (cfg : Config) (r : Relay) : ∀ op, Decidable (Enabled cfg r op)
  | .createOr _ _ _ => inferInstanceAs (Decidable True)
  | .createOrigin _ _ => inferInstanceAs (Decidable True)
  | .attachStream _ _ => inferInstanceAs (Decidable (∃ _ ∈ _, _))
  | .append _ _ _ _ _ _ => inferInstanceAs (Decidable ((∃ _ ∈ _, _) ∧ ∀ _ ∈ _, _))
  | .fire _ _ _ => inferInstanceAs (Decidable (∃ _ ∈ _, _))
  | .flush _ _ _ => inferInstanceAs (Decidable (∃ _ ∈ _, _))
  | .truncate _ => inferInstanceAs (Decidable (∃ _ ∈ _, _))
  | .connect _ _ _ => inferInstanceAs (Decidable (∃ _ ∈ _, _))
  | .mark _ => inferInstanceAs (Decidable (_ = true))
  | .unlink _ _ => inferInstanceAs (Decidable (∃ _ ∈ _, _))
  | .close _ => inferInstanceAs (Decidable (_ = true))

/-- One step of the relay. -/
def Step (cfg : Config) (r : Relay) (op : Op) (after : Relay) : Prop :=
  Enabled cfg r op ∧ after = exec cfg op r

/-- A relay that has just started. -/
def Relay.initial : Relay where
  circuits := fun _ => none
  timers := fun _ => none
  delayInfos := fun _ => none
  brk := 0
  log := []

/-- A run of a relay from its start. -/
abbrev RelayRun (cfg : Config) (ts : List (Transition Relay Op)) (r : Relay) : Prop :=
  Run (Step cfg) Relay.initial ts r

/-- The run of a relay that makes the given steps. -/
theorem relayRun_of_admissible (cfg : Config) (ops : List Op)
    (admissible : Admissible (exec cfg) (Enabled cfg) Relay.initial ops) :
    RelayRun cfg (trace (exec cfg) Relay.initial ops) (final (exec cfg) Relay.initial ops) :=
  run_of_admissible (exec cfg) (Enabled cfg) Relay.initial ops admissible

end RendezMix.Source
