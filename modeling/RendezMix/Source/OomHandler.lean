import RendezMix.Source.CircuitList

/-!
# The memory handler

`core/or/circuitlist.c`, from `single_conn_free_bytes` to `circuits_handle_oom`.
The handler reads the circuits and the buffers of connections; a chunk of a
buffer is known by its allocation and its stamp. `smartlist_sort` is `qsort`,
which may order equal elements in any way, so the sort is a parameter.

`FRACTION_OF_DATA_TO_RETAIN_ON_OOM` is applied exactly. The allocations are
natural numbers, and the caches that `cell_queues_check_size` empties first
are not modelled.
-/
namespace RendezMix.Source

/-- A `chunk_t`, as far as allocation and age go. -/
structure Chunk where
  allocSize : Nat
  insertedTime : UInt32
  deriving DecidableEq, Repr

abbrev Buf := List Chunk

/-- The connection types that the handler tells apart. -/
inductive ConnType
  | exit
  | ap
  | dir
  | other
  deriving DecidableEq, Repr

structure Connection where
  type : ConnType
  linkedConn : Option ConnPtr
  markedForClose : Bool
  inbuf : Option Buf
  outbuf : Option Buf
  /-- The size of a directory connection's `compress_state`, if it has one. -/
  compressState : Option Nat
  deriving DecidableEq, Repr

abbrev Conns := ConnPtr → Connection

/-- `CONN_IS_EDGE`. -/
def Connection.isEdge (conn : Connection) : Prop := conn.type = .exit ∨ conn.type = .ap

instance (conn : Connection) : Decidable conn.isEdge := inferInstanceAs (Decidable (_ ∨ _))

/-- `sizeof(packed_cell_t)` and `sizeof(half_edge_t)` on a 64-bit machine. -/
def packedCellMemCost : Nat := 544

def halfEdgeSize : Nat := 32

def bufAllocation (buf : Buf) : Nat := (buf.map Chunk.allocSize).sum

def bufGetOldestChunkTimestamp (buf : Buf) (now : UInt32) : UInt32 :=
  match buf with
  | [] => 0
  | chunk :: _ => now - chunk.insertedTime

/-- `single_conn_free_bytes`: the bytes it frees, and the connection without them. -/
def singleConnFreeBytes (conn : Connection) : Nat × Connection :=
  let inbuf := (conn.inbuf.map bufAllocation).getD 0
  let outbuf := (conn.outbuf.map bufAllocation).getD 0
  let compress := if conn.type = .dir then conn.compressState.getD 0 else 0
  (inbuf + outbuf + compress,
    { conn with
      inbuf := conn.inbuf.map (fun _ => [])
      outbuf := conn.outbuf.map (fun _ => [])
      compressState := if conn.type = .dir then none else conn.compressState })

/-- `if (age2 > age) age = age2;` -/
def olderAge (age age2 : UInt32) : UInt32 := if age2 > age then age2 else age

def connGetBufferAge (conn : Connection) (now : UInt32) : UInt32 :=
  let age :=
    match conn.outbuf with
    | some buf => olderAge 0 (bufGetOldestChunkTimestamp buf now)
    | none => 0
  match conn.inbuf with
  | some buf => olderAge age (bufGetOldestChunkTimestamp buf now)
  | none => age

/-- `circuit_max_queued_data_age`, with the loop of
`circuit_get_streams_max_data_age`. -/
def circuitMaxQueuedDataAge (circ : Circuit) (conns : Conns) (now : UInt32) : UInt32 :=
  circ.streams.foldl (fun age stream =>
    let conn := conns stream.conn
    let age := olderAge age (connGetBufferAge conn now)
    match conn.linkedConn with
    | some linked => olderAge age (connGetBufferAge (conns linked) now)
    | none => age) 0

/-- `circuit_max_queued_cell_age`: the heads of the channel queues. -/
def circuitMaxQueuedCellAge (circ : Circuit) (now : UInt32) : UInt32 :=
  let age :=
    match circ.n.chanCells with
    | cell :: _ => now - cell.insertedTimestamp
    | [] => 0
  if circ.magic = .orCircuit then
    match circ.p.chanCells with
    | cell :: _ => olderAge age (now - cell.insertedTimestamp)
    | [] => age
  else age

def circuitMaxQueuedItemAge (circ : Circuit) (conns : Conns) (now : UInt32) : UInt32 :=
  let cellAge := circuitMaxQueuedCellAge circ now
  let dataAge := circuitMaxQueuedDataAge circ conns now
  if cellAge > dataAge then cellAge else dataAge

def nCellsInCircQueues (circ : Circuit) : Nat :=
  circ.n.chanCells.length + if circ.magic = .orCircuit then circ.p.chanCells.length else 0

def circuitAllocInHalfStreams (circ : Circuit) : Nat :=
  if circ.magic = .orCircuit then 0 else circ.halfStreams * halfEdgeSize

def markedCircuitFreeStreamBytes (circ : Circuit) (conns : Conns) : Nat × Conns :=
  circ.streams.foldl (fun freed stream =>
    let own := singleConnFreeBytes (freed.2 stream.conn)
    let conns := Function.update freed.2 stream.conn own.2
    match own.2.linkedConn with
    | none => (freed.1 + own.1, conns)
    | some linked =>
      let other := singleConnFreeBytes (conns linked)
      (freed.1 + own.1 + other.1, Function.update conns linked other.2)) (0, conns)

/-- `smartlist_sort`, descending by a key. -/
structure SmartlistSort where
  sort : {α : Type} → (α → UInt32) → List α → List α
  perm : ∀ {α : Type} (key : α → UInt32) (xs : List α), (sort key xs).Perm xs
  sorted : ∀ {α : Type} (key : α → UInt32) (xs : List α),
    (sort key xs).Pairwise (fun a b => key b ≤ key a)

/-- One killed circuit: the number `n` that the handler counted for it, what
`mem_recovered` was afterwards, and the relay before and after. -/
structure OomKill where
  circ : CircPtr
  n : Nat
  memRecovered : Nat
  pre : Relay
  post : Relay

/-- The inner loop's variables: the connections from `conn_idx` on, the
buffers, `mem_recovered`, and whether the handler is done. -/
structure ConnSweep where
  rest : List ConnPtr
  conns : Conns
  memRecovered : Nat
  done : Bool

/-- The inner loop: connections whose data is at least as old as the circuit. -/
def freeOlderConns (memToRecover : Nat) (now age : UInt32) :
    List ConnPtr → Conns → Nat → ConnSweep
  | [], conns, memRecovered => ⟨[], conns, memRecovered, false⟩
  | c :: rest, conns, memRecovered =>
    let conn := conns c
    if connGetBufferAge conn now < age then ⟨c :: rest, conns, memRecovered, false⟩
    else if (conn.type = .dir ∧ conn.linkedConn = none) ∨ conn.isEdge then
      let freed := singleConnFreeBytes { conn with markedForClose := true }
      let conns := Function.update conns c freed.2
      if memRecovered + freed.1 ≥ memToRecover then
        ⟨c :: rest, conns, memRecovered + freed.1, true⟩
      else freeOlderConns memToRecover now age rest conns (memRecovered + freed.1)
    else freeOlderConns memToRecover now age rest conns memRecovered

structure OomResult where
  kills : List OomKill
  relay : Relay
  conns : Conns
  memRecovered : Nat

/-- The outer loop, over circuits with their `age_tmp`. -/
def killCircuits (cfg : Config) (memToRecover : Nat) (now : UInt32) :
    List (CircPtr × UInt32) → List ConnPtr → Relay → Conns → Nat → OomResult
  | [], _, relay, conns, memRecovered => ⟨[], relay, conns, memRecovered⟩
  | (c, ageTmp) :: circlist, connectionArray, relay, conns, memRecovered =>
    let sweep := freeOlderConns memToRecover now ageTmp connectionArray conns memRecovered
    if sweep.done then ⟨[], relay, sweep.conns, sweep.memRecovered⟩
    else
      match relay.circuits c with
      | none => ⟨[], relay.fault (.useAfterFree c), sweep.conns, sweep.memRecovered⟩
      | some circ =>
        let n := nCellsInCircQueues circ
        let halfStreamAlloc := circuitAllocInHalfStreams circ
        let post := killCircuit cfg c relay
        let freed := markedCircuitFreeStreamBytes circ sweep.conns
        let memRecovered := sweep.memRecovered + n * packedCellMemCost + halfStreamAlloc + freed.1
        let kill := OomKill.mk c n memRecovered relay post
        if memRecovered ≥ memToRecover then ⟨[kill], post, freed.2, memRecovered⟩
        else
          let later := killCircuits cfg memToRecover now circlist sweep.rest post freed.2
            memRecovered
          { later with kills := kill :: later.kills }

def ageTmp (relay : Relay) (conns : Conns) (now : UInt32) (c : CircPtr) : UInt32 :=
  match relay.circuits c with
  | none => 0
  | some circ => circuitMaxQueuedItemAge circ conns now

/-- `mem_target`. -/
def oomMemTarget (maxMemInQueues : Nat) : Nat := maxMemInQueues * 9 / 10

def circuitsHandleOom (cfg : Config) (maxMemInQueues : Nat) (smartlist : SmartlistSort)
    (currentAllocation : Nat) (now : UInt32) (circlist : List CircPtr)
    (connectionArray : List ConnPtr) (relay : Relay) (conns : Conns) : OomResult :=
  if currentAllocation ≤ oomMemTarget maxMemInQueues then ⟨[], relay, conns, 0⟩
  else
    killCircuits cfg (currentAllocation - oomMemTarget maxMemInQueues) now
      (smartlist.sort Prod.snd (circlist.map (fun c => (c, ageTmp relay conns now c))))
      (smartlist.sort (fun p => connGetBufferAge (conns p) now) connectionArray) relay conns 0

end RendezMix.Source
