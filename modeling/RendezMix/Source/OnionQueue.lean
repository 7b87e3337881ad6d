import RendezMix.Source.Onion
import RendezMix.Source.Sendme

/-!
# The queue of onionskins

`feature/relay/onion_queue.c`: the circuits of a relay that wait for a worker to answer their
CREATE cell. The elements of the three lists and the circuits refer to each other; an address is
the number of an allocation, so that none is used twice. Reading through a pointer to something
that has been freed, and a failed assertion, are `none`.
-/
namespace RendezMix.Source

/-! ## Elements and circuits -/

/-- An index of `ol_list`: tap, fast and ntor. -/
abbrev QueueIdx := Fin 3

instance neZeroThree : NeZero 3 := ⟨by decide⟩

def tapQueue : QueueIdx := 0
def ntorQueue : QueueIdx := 2

def maxOnionHandshakeType : UInt16 := 3

/-- `onion_queue_t` -/
structure OnionQueueElement where
  address : Nat
  circ : Nat
  queueIdx : QueueIdx
  onionskin : Option CreateCell
  whenAdded : Int
  deriving DecidableEq

/-- What the queue uses of an `or_circuit_t`. -/
structure WaitingCircuit where
  /-- The state is `CIRCUIT_STATE_ONIONSKIN_PENDING`. -/
  onionskinPending : Bool
  markedForClose : Bool
  onionqueueEntry : Option Nat
  deriving DecidableEq

/-- The static variables of the module, and the circuits there are. -/
structure OnionQueues where
  olList : QueueIdx → List OnionQueueElement
  olEntries : QueueIdx → Int
  recentlyChosenNtors : Int
  circuits : Nat → Option WaitingCircuit
  allocated : Nat

def emptyOnionQueues : OnionQueues where
  olList _ := []
  olEntries _ := 0
  recentlyChosenNtors := 0
  circuits _ := none
  allocated := 0

/-- What a call reads of the clock, the consensus, the options and the workers. -/
structure OnionEnv where
  now : Int
  /-- `NumNTorsPerTAP` in the consensus. -/
  numNtorsPerTapParam : Option Int
  numCpus : UInt64
  maxOnionQueueDelay : UInt64
  onionskinsNProcessed : QueueIdx → UInt64
  onionskinsUsecInternal : QueueIdx → UInt64

def numNtorsPerTap (env : OnionEnv) : Int :=
  networkstatusGetParam env.numNtorsPerTapParam 10 1 100000

def onionskinTypeToQueue (type : UInt16) : QueueIdx :=
  if type = onionHandshakeTypeNtorV3 then ntorQueue
  else if small : type.toNat < 3 then ⟨type.toNat, small⟩
  else ntorQueue

/-! ## Room -/

def estimatedUsecForOnionskins (env : OnionEnv) (nRequests : Int) (type : QueueIdx) : UInt64 :=
  let nRequests := (UInt32.ofInt nRequests).toUInt64
  if env.onionskinsNProcessed type < 100 then 1000 * nRequests
  else env.onionskinsUsecInternal type * nRequests / env.onionskinsNProcessed type

def haveRoomForOnionskin (env : OnionEnv) (olEntries : QueueIdx → Int) (type : QueueIdx) : Bool :=
  if olEntries type < 50 then true
  else
    let tapUsec := estimatedUsecForOnionskins env (olEntries tapQueue) tapQueue / env.numCpus
    let ntorUsec := estimatedUsecForOnionskins env (olEntries ntorQueue) ntorQueue / env.numCpus
    let tapDuringNtorUsec := estimatedUsecForOnionskins env
      (min (olEntries tapQueue) ((olEntries ntorQueue).tdiv (numNtorsPerTap env))) tapQueue
        / env.numCpus
    let ntorDuringTapUsec := estimatedUsecForOnionskins env
      (min (olEntries ntorQueue) (olEntries tapQueue * numNtorsPerTap env)) ntorQueue
        / env.numCpus
    if type = ntorQueue ∧ (ntorUsec + tapDuringNtorUsec) / 1000 > env.maxOnionQueueDelay then false
    else if type = tapQueue ∧ (tapUsec + ntorDuringTapUsec) / 1000 > env.maxOnionQueueDelay then
      false
    else if type = tapQueue ∧ tapUsec / 1000 > env.maxOnionQueueDelay * 2 / 3 then false
    else true

/-! ## Pointers -/

/-- A write to a circuit. -/
def updateCircuit (circ : Nat) (f : WaitingCircuit → WaitingCircuit) (q : OnionQueues) :
    Option OnionQueues :=
  (q.circuits circ).map fun old => { q with circuits := Function.update q.circuits circ (some (f old)) }

/-- `circ->onionqueue_entry = entry` -/
def setOnionqueueEntry (circ : Nat) (entry : Option Nat) (q : OnionQueues) : Option OnionQueues :=
  updateCircuit circ (fun old => { old with onionqueueEntry := entry }) q

/-- The element that a pointer leads to. -/
def readElement (q : OnionQueues) (address : Nat) : Option OnionQueueElement :=
  (q.olList 0 ++ q.olList 1 ++ q.olList 2).find? fun element => element.address = address

/-- `circuit_mark_for_close` -/
def circuitMarkWaiting (circ : Nat) (q : OnionQueues) : Option OnionQueues :=
  updateCircuit circ (fun old => { old with markedForClose := true }) q

def onionQueueEntryRemove (victim : OnionQueueElement) (q : OnionQueues) : Option OnionQueues := do
  let q := { q with
    olList := Function.update q.olList victim.queueIdx
      ((q.olList victim.queueIdx).filter fun element => element.address ≠ victim.address) }
  let q ← setOnionqueueEntry victim.circ none q
  if victim.onionskin.isSome then
    return { q with
      olEntries := Function.update q.olEntries victim.queueIdx (q.olEntries victim.queueIdx - 1) }
  else return q

/-! ## Adding -/

def onionqueueWaitCutoff : Int := 5

/-- The loop of `onion_pending_add` that culls elderly requests. -/
def cullElderly (now : Int) (queueIdx : QueueIdx) : Nat → OnionQueues → Option OnionQueues
  | 0, _ => none
  | fuel + 1, q =>
    match q.olList queueIdx with
    | [] => none
    | head :: _ =>
      if now - head.whenAdded < onionqueueWaitCutoff then some q
      else do
        let q ← setOnionqueueEntry head.circ none q
        let q ← onionQueueEntryRemove head q
        let circ ← q.circuits head.circ
        let q ← if ¬ circ.markedForClose then circuitMarkWaiting head.circ q else some q
        cullElderly now queueIdx fuel q

/-- The element for a circuit and its onionskin. -/
def newElement (now : Int) (circ : Nat) (onionskin : CreateCell) (q : OnionQueues) :
    OnionQueueElement where
  address := q.allocated
  circ := circ
  queueIdx := onionskinTypeToQueue onionskin.handshakeType
  onionskin := some onionskin
  whenAdded := now

/-- `onion_pending_add`, with whether it returns 0. -/
def onionPendingAdd (env : OnionEnv) (circ : Nat) (onionskin : CreateCell) (q : OnionQueues) :
    Option (OnionQueues × Bool) :=
  if onionskin.handshakeType > maxOnionHandshakeType then some (q, false)
  else
    let tmp := newElement env.now circ onionskin q
    let queueIdx := tmp.queueIdx
    if !haveRoomForOnionskin env q.olEntries queueIdx then some (q, false)
    else do
      let q := { q with
        olEntries := Function.update q.olEntries queueIdx (q.olEntries queueIdx + 1)
        allocated := q.allocated + 1 }
      let q ← setOnionqueueEntry circ (some tmp.address) q
      let q := { q with olList := Function.update q.olList queueIdx (q.olList queueIdx ++ [tmp]) }
      let q ← cullElderly env.now queueIdx (q.olList queueIdx).length q
      return (q, true)

/-! ## Handing out -/

/-- `decide_next_handshake_type`, with what it leaves in `recently_chosen_ntors`. -/
def decideNextHandshakeType (env : OnionEnv) (q : OnionQueues) : QueueIdx × Int :=
  let recentlyChosenNtors := q.recentlyChosenNtors
  if q.olEntries ntorQueue = 0 then (tapQueue, recentlyChosenNtors)
  else if q.olEntries tapQueue = 0 then
    (ntorQueue,
      if q.olEntries ntorQueue ≠ 0 ∧ recentlyChosenNtors ≤ numNtorsPerTap env then
        recentlyChosenNtors + 1
      else recentlyChosenNtors)
  else if recentlyChosenNtors + 1 ≤ numNtorsPerTap env then (ntorQueue, recentlyChosenNtors + 1)
  else (tapQueue, 0)

/-- `onion_next_task`, with the element whose circuit and onionskin it returns. -/
def onionNextTask (env : OnionEnv) (q : OnionQueues) :
    Option (OnionQueues × Option OnionQueueElement) :=
  let (handshakeToChoose, recentlyChosenNtors) := decideNextHandshakeType env q
  let q := { q with recentlyChosenNtors := recentlyChosenNtors }
  match q.olList handshakeToChoose with
  | [] => some (q, none)
  | head :: _ => do
    let q := if head.onionskin.isSome then { q with
        olEntries := Function.update q.olEntries head.queueIdx (q.olEntries head.queueIdx - 1) }
      else q
    let q ← setOnionqueueEntry head.circ none q
    let q ← onionQueueEntryRemove { head with onionskin := none } q
    return (q, some head)

/-! ## Removing -/

def onionPendingRemove (circ : Nat) (q : OnionQueues) : Option OnionQueues := do
  let old ← q.circuits circ
  match old.onionqueueEntry with
  | none => return q
  | some address => do
    let victim ← readElement q address
    onionQueueEntryRemove victim q

/-- `circuit_about_to_free`, and the circuit is freed. -/
def circuitFreeWaiting (circ : Nat) (q : OnionQueues) : Option OnionQueues := do
  let old ← q.circuits circ
  let q ← if old.onionskinPending then onionPendingRemove circ q else some q
  return { q with circuits := Function.update q.circuits circ none }

/-! ## Runs -/

inductive OnionEvent
  /-- `or_circuit_new` -/
  | newCircuit (circ : Nat)
  /-- `circuit_set_state` -/
  | setState (circ : Nat) (onionskinPending : Bool)
  | add (env : OnionEnv) (circ : Nat) (onionskin : CreateCell)
  | next (env : OnionEnv)
  | remove (circ : Nat)
  | mark (circ : Nat)
  | free (circ : Nat)

inductive OnionReply
  | done
  | accepted
  | refused
  | task (element : OnionQueueElement)
  | idle
  deriving DecidableEq

/-- One call, with what it returns. -/
def onionStep (q : OnionQueues) : OnionEvent → Option (OnionQueues × OnionReply)
  | .newCircuit circ => some
      ({ q with circuits := Function.update q.circuits circ (some ⟨false, false, none⟩) }, .done)
  | .setState circ onionskinPending =>
    (updateCircuit circ (fun old => { old with onionskinPending := onionskinPending }) q).map
      fun q => (q, .done)
  | .add env circ onionskin => (onionPendingAdd env circ onionskin q).map
      fun (q, added) => (q, if added then .accepted else .refused)
  | .next env => (onionNextTask env q).map
      fun (q, element) => (q, match element with | some element => .task element | none => .idle)
  | .remove circ => (onionPendingRemove circ q).map fun q => (q, .done)
  | .mark circ => (circuitMarkWaiting circ q).map fun q => (q, .done)
  | .free circ => (circuitFreeWaiting circ q).map fun q => (q, .done)

/-- When the code makes a call: on circuits that have not been freed; `or_circuit_new` gets memory
that is not in use; `command_process_create_cell` adds a circuit that it has made and whose state
it has set, and the state changes again only when the handshake has been answered. -/
def Allowed (q : OnionQueues) : OnionEvent → Prop
  | .newCircuit circ => q.circuits circ = none
  | .setState circ _ => ∃ old, q.circuits circ = some old ∧ old.onionqueueEntry = none
  | .add _ circ _ => ∃ old, q.circuits circ = some old ∧ old.onionskinPending = true
      ∧ old.onionqueueEntry = none
  | .next _ => True
  | .remove circ | .mark circ | .free circ => ∃ old, q.circuits circ = some old

/-- A call and its result, as a step. -/
def OnionStep (q : OnionQueues) (call : OnionEvent × OnionReply) (q' : OnionQueues) : Prop :=
  Allowed q call.1 ∧ onionStep q call.1 = some (q', call.2)

end RendezMix.Source
