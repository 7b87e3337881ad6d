import RendezMix.Library.Runs
import RendezMix.Source.Circuitmux

/-!
# A mux over time

The calls made on the mux of one channel, with what happens around it: time
passes, options change, the hash table is reordered, and circuits get channels,
ids and cells. `Allowed` is what the callers keep to.
-/
namespace RendezMix.Source.MuxSystem

open Library.Runs Source CircuitmuxEwma Circuitmux

structure MuxWorld where
  chan : UInt64
  env : Environment
  state : MuxState

def MuxWorld.mux (w : MuxWorld) : CircuitMux := w.state.mux

/-- The entries of the mux. -/
def MuxWorld.entries (w : MuxWorld) : List MapEntry := w.state.mux.chanidCircidMap

inductive MuxEvent
  | attach (circ : CircRef) (direction : CellDirection)
  | detach (circ : CircRef)
  | setNumCells (circ : CircRef) (nCells : UInt32)
  | notifyXmitCells (circ : CircRef) (nCells : UInt32)
  | detachAllCircuits
  | setPolicy (ewma : Bool)
  | rehash (entries : List MapEntry)
  | clock (now : Int)
  | setOptions (ewmaTickLen : Nat) (ewmaScaleFactor : Rat)
  | environment (env : Environment)

variable (pow : Rat → Rat → Rat)

/-- The state of the mux after an event. -/
def stateAfter (w : MuxWorld) : MuxEvent → Option MuxState
  | .attach circ direction => circuitmuxAttachCircuit pow w.env w.state circ direction
  | .detach circ => circuitmuxDetachCircuit w.env w.state circ
  | .setNumCells circ nCells => circuitmuxSetNumCells pow w.env w.state circ nCells
  | .notifyXmitCells circ nCells => circuitmuxNotifyXmitCells pow w.env w.state circ nCells
  | .detachAllCircuits => (circuitmuxDetachAllCircuits w.env w.state).map Prod.fst
  | .setPolicy ewma => circuitmuxSetPolicy pow w.env w.state ewma
  | .rehash entries =>
      some { w.state with mux := { w.state.mux with chanidCircidMap := entries } }
  | .clock now => some { w.state with globals := { w.state.globals with now := now } }
  | .setOptions ewmaTickLen ewmaScaleFactor =>
      some { w.state with globals := { w.state.globals with
        ewmaTickLen := ewmaTickLen
        ewmaScaleFactor := ewmaScaleFactor } }
  | .environment _ => some w.state

def envAfter (w : MuxWorld) : MuxEvent → Environment
  | .environment env => env
  | _ => w.env

/-- `none` if an assertion fails. -/
def muxStep (w : MuxWorld) (ev : MuxEvent) : Option MuxWorld :=
  (stateAfter pow w ev).map fun state => ⟨w.chan, envAfter w ev, state⟩

/-- A circuit takes part in the traffic of a channel under a circuit id. -/
def Owns (env : Environment) (circ : CircRef) (direction : CellDirection) (chanId : UInt64)
    (circId : UInt32) : Prop :=
  match direction with
  | .outbound => (env.circuit circ).nChan = some chanId ∧ (env.circuit circ).nCircId = circId
  | .inbound => (env.circuit circ).magic = .orCircuit
      ∧ (env.circuit circ).pChan = some chanId ∧ (env.circuit circ).pCircId = circId

instance (env : Environment) (circ : CircRef) (direction : CellDirection) (chanId : UInt64)
    (circId : UInt32) : Decidable (Owns env circ direction chanId circId) := by
  cases direction <;> unfold Owns <;> infer_instance

/-- What other modules promise about channels and circuits. The map of circuit ids
knows all circuits (`circuit_set_circid_chan_helper`), and a circuit does not leave
on the channel it came from (`circuit_extend_lspec_valid_helper`). -/
structure SoundEnvironment (env : Environment) (chan : UInt64) : Prop where
  channel : env.channelExists chan
  registered : ∀ circ direction circId, Owns env circ direction chan circId → circId ≠ 0 →
    env.circidMap chan circId = some circ
  onward : ∀ circ, (env.circuit circ).magic = .orCircuit →
    (env.circuit circ).pChan = some chan → (env.circuit circ).nChan ≠ some chan

/-- The protocol of the calls. Circuits are attached to the mux of their own channel,
and keep their ids while they are attached. No more cells are reported sent than were
queued, and they were sent on the circuit that the policy picks. -/
def Allowed (w : MuxWorld) : MuxEvent → Prop
  | .attach circ direction => w.mux.policy.isSome
      ∧ ∃ circId, Owns w.env circ direction w.chan circId ∧ circId ≠ 0
  | .detach circ => (w.mux.policy.isSome ∨ ∀ e ∈ w.entries, e.muxinfo.cellCount = 0)
      ∧ ∃ direction circId, Owns w.env circ direction w.chan circId
  | .setNumCells circ _ => w.mux.policy.isSome
      ∧ ∃ e, circuitmuxFindMapEntry w.env w.mux circ = some (some e)
  | .notifyXmitCells circ nCells => nCells = 0 ∨ ∃ e pol,
      circuitmuxFindMapEntry w.env w.mux circ = some (some e)
      ∧ nCells ≤ e.muxinfo.cellCount
      ∧ w.mux.policy = some pol ∧ ewmaPickActiveCircuit pol w.state.mem = some circ
  | .detachAllCircuits => w.mux.policy.isSome ∨ ∀ e ∈ w.entries, e.muxinfo.cellCount = 0
  | .setPolicy _ => True
  | .rehash entries => entries.Perm w.entries
  | .clock _ => True
  | .setOptions ewmaTickLen ewmaScaleFactor =>
      1 ≤ ewmaTickLen ∧ ewmaTickLen ≤ 600 ∧ 0 < ewmaScaleFactor
  | .environment env => SoundEnvironment env w.chan ∧ ∀ e ∈ w.entries, ∀ circ,
      w.env.circidMap e.chanId e.circId = some circ →
        Owns env circ e.muxinfo.direction e.chanId e.circId

/-- A new mux: `circuitmux_alloc`, before a policy is set. -/
structure Fresh (w : MuxWorld) : Prop where
  alloc : w.mux = circuitmuxAlloc
  sound : SoundEnvironment w.env w.chan
  ticks : 1 ≤ w.state.globals.ewmaTickLen
  scale : 0 < w.state.globals.ewmaScaleFactor

/-- A call that keeps to the protocol and returns. -/
def MuxStep (w : MuxWorld) (ev : MuxEvent) (w' : MuxWorld) : Prop :=
  Allowed w ev ∧ muxStep pow w ev = some w'

/-! ## Calls that can be checked -/

/-- The circuit id that a circuit has on one side. -/
def idOf (c : MuxCircuit) : CellDirection → UInt32
  | .outbound => c.nCircId
  | .inbound => c.pCircId

/-- A sufficient test of `Allowed` for calls about one circuit and for `setPolicy`. -/
def allowedCall (w : MuxWorld) : MuxEvent → Bool
  | .attach circ direction =>
      let circId := idOf (w.env.circuit circ) direction
      w.mux.policy.isSome && decide (Owns w.env circ direction w.chan circId ∧ circId ≠ 0)
  | .detach circ =>
      w.mux.policy.isSome && decide (Owns w.env circ .outbound w.chan (w.env.circuit circ).nCircId)
  | .setNumCells circ _ =>
      w.mux.policy.isSome && ((circuitmuxFindMapEntry w.env w.mux circ).bind id).isSome
  | .notifyXmitCells circ nCells =>
      match (circuitmuxFindMapEntry w.env w.mux circ).bind id, w.mux.policy with
      | some e, some pol => decide (nCells ≤ e.muxinfo.cellCount
          ∧ ewmaPickActiveCircuit pol w.state.mem = some circ)
      | _, _ => false
  | .setPolicy _ => true
  | _ => false

theorem allowedCall_sound {w : MuxWorld} {ev : MuxEvent} (checked : allowedCall w ev = true) :
    Allowed w ev := by
  cases ev with
  | attach circ direction =>
    simp only [allowedCall, Bool.and_eq_true, decide_eq_true_eq] at checked
    exact ⟨checked.1, _, checked.2⟩
  | detach circ =>
    simp only [allowedCall, Bool.and_eq_true, decide_eq_true_eq] at checked
    exact ⟨.inl checked.1, .outbound, _, checked.2⟩
  | setNumCells circ nCells =>
    simp only [allowedCall, Bool.and_eq_true] at checked
    obtain ⟨e, found⟩ := Option.isSome_iff_exists.mp checked.2
    obtain ⟨found', there, same⟩ := Option.bind_eq_some_iff.mp found
    cases same
    exact ⟨checked.1, e, there⟩
  | notifyXmitCells circ nCells =>
    simp only [allowedCall] at checked
    split at checked
    · next e pol found installed =>
      obtain ⟨found', there, same⟩ := Option.bind_eq_some_iff.mp found
      cases same
      simp only [decide_eq_true_eq] at checked
      exact .inr ⟨e, pol, there, checked.1, installed, checked.2⟩
    · cases checked
  | setPolicy ewma => trivial
  | detachAllCircuits
  | rehash entries
  | clock now
  | setOptions ewmaTickLen ewmaScaleFactor
  | environment env => cases checked

/-- Make calls one after the other as long as they pass this test and another one. -/
def runCalls (test : MuxWorld → MuxEvent → Bool) : MuxWorld → List MuxEvent → Option MuxWorld :=
  execAll (muxStep pow) fun w ev => allowedCall w ev && test w ev

theorem run_of_runCalls {test : MuxWorld → MuxEvent → Bool} {w w' : MuxWorld}
    {evs : List MuxEvent} (result : runCalls pow test w evs = some w') :
    ∃ ts, Run (MuxStep pow) w ts w' ∧ ∀ x ∈ ts, test x.pre x.input = true := by
  have sound : ∀ w ev w', (allowedCall w ev && test w ev) = true → muxStep pow w ev = some w' →
      MuxStep pow w ev w' := by
    intro w ev w' checked taken
    exact ⟨allowedCall_sound (Bool.and_eq_true_iff.mp checked).1, taken⟩
  obtain ⟨ts, run, checked⟩ := run_of_execAll sound result
  exact ⟨ts, run, fun x inside => (Bool.and_eq_true_iff.mp (checked x inside)).2⟩

end RendezMix.Source.MuxSystem

/-!
# Flushing a channel

`channel_flush_from_first_active_circuit` of `core/or/relay.c` on the mux of the
channel, and the calls that queue cells for it. Cell queues are known by their
lengths; what becomes of the cells and of blocked streams is in `RelayQueues`. The
results of `channel_write_packed_cell` are an input: one for each pass through the
main loop, unused where the pass writes nothing. `FlushNote`s record what was
chosen, and which DESTROY cells got lost.
-/
namespace RendezMix.Source.ChannelFlush

open Library.Runs Source CircuitmuxEwma Circuitmux MuxSystem

inductive FlushNote
  /-- A choice of the mux, and whether it had cells of both kinds. -/
  | chose (destroy bothPending : Bool)
  /-- The write of a DESTROY cell failed. -/
  | destroyLost
  deriving DecidableEq

/-- `queue->n` -/
def cellsOn (c : MuxCircuit) : CellDirection → UInt32
  | .outbound => c.nChanCells
  | .inbound => c.pChanCells

def MuxWorld.withCells (w : MuxWorld) (circ : CircRef) (direction : CellDirection) (n : UInt32) :
    MuxWorld :=
  let c := w.env.circuit circ
  let c' := match direction with
    | .outbound => { c with nChanCells := n }
    | .inbound => { c with pChanCells := n }
  { w with env := { w.env with circuit := Function.update w.env.circuit circ c' } }

def MuxWorld.withState (w : MuxWorld) (state : MuxState) : MuxWorld := { w with state := state }

/-- A DESTROY cell and a circuit with cells are waiting. -/
def bothPending (mux : CircuitMux) : Bool :=
  !mux.destroyCellQueue.isEmpty && decide (mux.nActiveCircuits > 0)

section Policy

variable (pow : Rat → Rat → Rat)

/-- The cells sent in a pass, or `none` where the loop ends. -/
abbrev Pass := Option Nat

/-- Send the first DESTROY cell. A cell that could not be written is gone. -/
def flushDestroy (w : MuxWorld) (writeOk : Bool) : Option (Pass × MuxWorld × List FlushNote) :=
  match w.mux.destroyCellQueue with
  | [] => none
  | _ :: rest =>
      let mux := { w.mux with destroyCellQueue := rest }
      if writeOk then
        let mux := circuitmuxNotifyXmitDestroy mux
        some (some 1, MuxWorld.withState w { w.state with mux := mux }, [])
      else some (some 0, MuxWorld.withState w { w.state with mux := mux }, [.destroyLost])

/-- Send the first cell of a circuit. A circuit without cells is closed. -/
def sendFrom (w : MuxWorld) (circ : CircRef) (direction : CellDirection) (writeOk : Bool) :
    Option (Pass × MuxWorld) :=
  let n := cellsOn (w.env.circuit circ) direction
  if n = 0 then do
    let state ← circuitmuxSetNumCells pow w.env w.state circ 0
    return (some 0, MuxWorld.withState w state)
  else
    let w := MuxWorld.withCells w circ direction (n - 1)
    if writeOk then do
      let state ← circuitmuxNotifyXmitCells pow w.env w.state circ 1
      let state ← circuitmuxSetNumCells pow w.env state circ (n - 1)
      return (some 1, MuxWorld.withState w state)
    else return (some 0, w)

/-- The direction in which a circuit uses the channel. -/
def directionOn (chan : UInt64) (c : MuxCircuit) : CellDirection :=
  if c.nChan = some chan then .outbound else .inbound

def flushCircuit (w : MuxWorld) (circ : CircRef) (writeOk : Bool) : Option (Pass × MuxWorld) := do
  let c := w.env.circuit circ
  torAssert (directionOn w.chan c = .outbound ∨ c.magic = .orCircuit ∧ c.pChan = some w.chan)
  sendFrom pow w circ (directionOn w.chan c) writeOk

/-- One pass through the main loop. -/
def flushPass (w : MuxWorld) (writeOk : Bool) : Option (Pass × MuxWorld × List FlushNote) := do
  let both := bothPending w.mux
  let (circ, destroyQueue, state) ← circuitmuxGetFirstActiveCircuit w.state
  let w := MuxWorld.withState w state
  if destroyQueue then do
    let (pass, w, notes) ← flushDestroy w writeOk
    return (pass, w, .chose true both :: notes)
  else
    match circ with
    | none => return (none, w, [])
    | some circ => do
        let (pass, w) ← flushCircuit pow w circ writeOk
        return (pass, w, [.chose false both])

/-- The main loop, with what is noted before it. It does not end if `writes` has no
result for its next pass. -/
def flushLoop (max : Nat) : List Bool → Nat → MuxWorld → List FlushNote →
    Option (Nat × MuxWorld × List FlushNote)
  | writes, nFlushed, w, notes =>
      if nFlushed ≥ max then some (nFlushed, w, notes)
      else
        match writes with
        | [] => none
        | writeOk :: writes => do
            let (pass, w, new) ← flushPass pow w writeOk
            match pass with
            | none => return (nFlushed, w, notes ++ new)
            | some sent => flushLoop max writes (nFlushed + sent) w (notes ++ new)

def channelFlushFromFirstActiveCircuit (w : MuxWorld) (notes : List FlushNote) (max : Nat)
    (writes : List Bool) : Option (Nat × MuxWorld × List FlushNote) :=
  flushLoop pow max writes 0 w notes

/-- `queuedWrites` is `channel_has_queued_writes`. -/
def circuitmuxAppendDestroyCell (w : MuxWorld) (notes : List FlushNote) (circId : UInt32)
    (reason : UInt8) (queuedWrites : Bool) (writes : List Bool) :
    Option (MuxWorld × List FlushNote) := do
  let mux := destroyCellQueueAppend w.mux circId reason
  let w := MuxWorld.withState w { w.state with mux := mux }
  if queuedWrites then return (w, notes)
  else do
    let (_, w, notes) ← channelFlushFromFirstActiveCircuit pow w notes 1 writes
    return (w, notes)

/-- `update_circuit_on_cmux_` for a circuit of this channel. -/
def updateCircuitOnCmux (w : MuxWorld) (circ : CircRef) (direction : CellDirection) :
    Option MuxWorld := do
  let found ← circuitmuxFindMapEntry w.env w.mux circ
  match found with
  | none => return w
  | some hashent => do
      torAssert (hashent.muxinfo.direction = direction)
      let state ← circuitmuxSetNumCells pow w.env w.state circ
        (cellsOn (w.env.circuit circ) direction)
      return MuxWorld.withState w state

/-! ## A channel over time -/

structure ChannelWorld where
  world : MuxWorld
  notes : List FlushNote

def ChannelWorld.mux (w : ChannelWorld) : CircuitMux := w.world.mux

inductive ChannelEvent
  | appendDestroy (circId : UInt32) (reason : UInt8) (queuedWrites : Bool) (writes : List Bool)
  /-- The queue of a circuit has `n` cells now, and the mux is told. -/
  | queueCells (circ : CircRef) (direction : CellDirection) (n : UInt32)
  | flush (max : Nat) (writes : List Bool)
  /-- Any other call on the mux. -/
  | call (ev : MuxEvent)

def channelStep (w : ChannelWorld) : ChannelEvent → Option ChannelWorld
  | .appendDestroy circId reason queuedWrites writes =>
      (circuitmuxAppendDestroyCell pow w.world w.notes circId reason queuedWrites writes).map
        fun (world, notes) => ⟨world, notes⟩
  | .queueCells circ direction n =>
      (updateCircuitOnCmux pow (MuxWorld.withCells w.world circ direction n) circ direction).map
        fun world => ⟨world, w.notes⟩
  | .flush max writes =>
      (channelFlushFromFirstActiveCircuit pow w.world w.notes max writes).map
        fun (_, world, notes) => ⟨world, notes⟩
  | .call ev => (muxStep pow w.world ev).map fun world => ⟨world, w.notes⟩

/-- Other calls keep to the protocol of the mux. -/
def Permitted (w : ChannelWorld) : ChannelEvent → Prop
  | .call ev => Allowed w.world ev
  | _ => True

/-- A permitted call that returns. -/
def ChannelStep (w : ChannelWorld) (ev : ChannelEvent) (w' : ChannelWorld) : Prop :=
  Permitted w ev ∧ channelStep pow w ev = some w'

/-- A sufficient test of `Permitted`. -/
def permittedCall (w : ChannelWorld) : ChannelEvent → Bool
  | .call ev => allowedCall w.world ev
  | _ => true

def runEvents : ChannelWorld → List ChannelEvent → Option ChannelWorld :=
  execAll (channelStep pow) permittedCall

theorem run_of_runEvents {w w' : ChannelWorld} {evs : List ChannelEvent}
    (result : runEvents pow w evs = some w') : ∃ ts, Run (ChannelStep pow) w ts w' := by
  have sound : ∀ w ev w', permittedCall w ev = true → channelStep pow w ev = some w' →
      ChannelStep pow w ev w' := by
    intro w ev w' checked taken
    refine ⟨?_, taken⟩
    cases ev with
    | call ev => exact allowedCall_sound checked
    | _ => trivial
  obtain ⟨ts, run, -⟩ := run_of_execAll sound result
  exact ⟨ts, run⟩

end Policy

end RendezMix.Source.ChannelFlush
