import RendezMix.Source.Sendme
import RendezMix.Source.Smartlist

/-!
# The directories of a hidden service

`hs_get_responsible_hsdirs` of `feature/hs/hs_common.c`: nodes and blinded keys have places on
a ring of digests, and a descriptor is stored at the nodes that follow the places of its
replicas. The digest function and the sorting function are parameters; a failed assertion is
`none`.
-/
namespace RendezMix.Source
open Library.ByteStrings Library.Sorting
open Std (TransCmp)

/-! ## Nodes -/

structure HsdirIndex where
  fetch : Bytes 32
  storeFirst : Bytes 32
  storeSecond : Bytes 32
  deriving DecidableEq

structure Routerstatus where
  identityDigest : Bytes 20
  isHsDir : Bool
  deriving DecidableEq

/-- `node_t`; the protocol versions and the descriptor are what the functions here ask of them. -/
structure Node where
  rs : Routerstatus
  supportsV3Hsdir : Bool
  hasPreferredDescriptor : Bool
  hsdirIndex : HsdirIndex

/-- A consensus, with the nodelist after `nodelist_ensure_freshness`. -/
structure FreshConsensus where
  routerstatusList : List Routerstatus
  nodeGetById : Bytes 20 → Option Node
  fresh : ∀ rs ∈ routerstatusList, ∃ n, nodeGetById rs.identityDigest = some n ∧ n.rs = rs

/-- `fast_mem_is_zero` -/
def memIsZero (bytes : List UInt8) : Bool := bytes.all (· == 0)

/-- `node_has_hsdir_index`, for a node that supports them. -/
def nodeHasHsdirIndex (node : Node) : Bool :=
  if !node.hasPreferredDescriptor then false
  else if memIsZero node.hsdirIndex.fetch.val then false
  else if memIsZero node.hsdirIndex.storeFirst.val then false
  else if memIsZero node.hsdirIndex.storeSecond.val then false
  else true

/-! ## Comparisons -/

/-- `tor_memcmp` of two digests. -/
def compareIndices : Bytes 32 → Bytes 32 → Ordering := compareOn fun digest => digest.val

instance : TransCmp compareIndices :=
  inferInstanceAs (TransCmp (compareOn fun digest : Bytes 32 => digest.val))

/-- Compare two nodes by one of their indices. -/
def compareNodeHsdirIndex (index : HsdirIndex → Bytes 32) (node1 node2 : Node) : Ordering :=
  compareIndices (index node1.hsdirIndex) (index node2.hsdirIndex)

instance (index : HsdirIndex → Bytes 32) : TransCmp (compareNodeHsdirIndex index) :=
  inferInstanceAs (TransCmp (compareOn fun node : Node => (index node.hsdirIndex).val))

def compareNodeFetchHsdirIndex : Node → Node → Ordering := compareNodeHsdirIndex HsdirIndex.fetch

def compareNodeStoreFirstHsdirIndex : Node → Node → Ordering :=
  compareNodeHsdirIndex HsdirIndex.storeFirst

def compareNodeStoreSecondHsdirIndex : Node → Node → Ordering :=
  compareNodeHsdirIndex HsdirIndex.storeSecond

/-- Compare a digest with one of the indices of a node. -/
def compareDigestToHsdirIndex (index : HsdirIndex → Bytes 32) (key : Bytes 32) (node : Node) :
    Ordering :=
  compareIndices key (index node.hsdirIndex)

def compareDigestToFetchHsdirIndex : Bytes 32 → Node → Ordering :=
  compareDigestToHsdirIndex HsdirIndex.fetch

def compareDigestToStoreFirstHsdirIndex : Bytes 32 → Node → Ordering :=
  compareDigestToHsdirIndex HsdirIndex.storeFirst

def compareDigestToStoreSecondHsdirIndex : Bytes 32 → Node → Ordering :=
  compareDigestToHsdirIndex HsdirIndex.storeSecond

/-! ## Parameters and places -/

/-- What the functions read besides their arguments. -/
structure HsdirEnv where
  sha3 : List UInt8 → Bytes 32
  smartlistSort : ∀ index, Sorter (compareNodeHsdirIndex index)
  ns : String → Option Int
  testingTorNetwork : Bool
  protocolRunDuration : Nat
  liveConsensus : Option FreshConsensus

def hsGetHsdirNReplicas (env : HsdirEnv) : Int :=
  networkstatusGetParam (env.ns "hsdir_n_replicas") 2 1 16

def hsGetHsdirSpreadFetch (env : HsdirEnv) : Int :=
  networkstatusGetParam (env.ns "hsdir_spread_fetch") 3 1 128

def hsGetHsdirSpreadStore (env : HsdirEnv) : Int :=
  networkstatusGetParam (env.ns "hsdir_spread_store") 4 1 128

/-- `get_time_period_length`, in minutes. -/
def getTimePeriodLength (env : HsdirEnv) : Nat :=
  if env.testingTorNetwork then env.protocolRunDuration / 60
  else (networkstatusGetParam (env.ns "hsdir_interval") 1440 30 14400).toNat

/-- `HS_INDEX_PREFIX`: `store-at-idx`. -/
def hsIndexPrefix : List UInt8 := [115, 116, 111, 114, 101, 45, 97, 116, 45, 105, 100, 120]

def hsBuildHsIndex (env : HsdirEnv) (replica : Nat) (blindedPk : Bytes 32) (periodNum : UInt64) :
    Bytes 32 :=
  env.sha3 (hsIndexPrefix ++ blindedPk.val ++ bigEndian 8 replica
    ++ bigEndian 8 (getTimePeriodLength env) ++ bigEndian 8 periodNum.toNat)

/-! ## The responsible directories -/

/-- The nodes of the consensus that are directories, in its order. -/
def hsdirNodes (c : FreshConsensus) : List Routerstatus → Option (List Node)
  | [] => some []
  | rs :: rest => do
    let n ← c.nodeGetById rs.identityDigest
    let nodes ← hsdirNodes c rest
    if n.supportsV3Hsdir && rs.isHsDir then
      if !nodeHasHsdirIndex n then return nodes
      return n :: nodes
    return nodes

/-- The loop that adds the nodes from an index on. -/
def addDirs (sortedNodes : List Node) (start : Nat) (nToAdd : Int) :
    Nat → Nat → Int → List Routerstatus → Option (List Routerstatus)
  | 0, _, _, _ => none
  | fuel + 1, idx, nAdded, responsibleDirs =>
    if nAdded < nToAdd then do
      let node ← sortedNodes[idx]?
      let (responsibleDirs, nAdded) :=
        if node.rs ∈ responsibleDirs then (responsibleDirs, nAdded)
        else (responsibleDirs ++ [node.rs], nAdded + 1)
      let idx := if idx + 1 = sortedNodes.length then 0 else idx + 1
      if idx = start then some responsibleDirs
      else addDirs sortedNodes start nToAdd fuel idx nAdded responsibleDirs
    else some responsibleDirs

/-- One replica. -/
def addReplica (env : HsdirEnv) (sortedNodes : List Node) (cmpFct : Bytes 32 → Node → Ordering)
    (nToAdd : Int) (blindedPk : Bytes 32) (timePeriodNum : UInt64)
    (responsibleDirs : List Routerstatus) (replica : Nat) : Option (List Routerstatus) := do
  let hsIndex := hsBuildHsIndex env replica blindedPk timePeriodNum
  let (idx, _) ← smartlistBsearchIdx (cmpFct hsIndex) sortedNodes
  let idx := if idx = sortedNodes.length then 0 else idx
  addDirs sortedNodes idx nToAdd (sortedNodes.length + 1) idx 0 responsibleDirs

def hsGetResponsibleHsdirs (env : HsdirEnv) (blindedPk : Bytes 32) (timePeriodNum : UInt64)
    (useSecondHsdirIndex forFetching : Bool) (responsibleDirs : List Routerstatus) :
    Option (List Routerstatus) :=
  match env.liveConsensus with
  | none => some responsibleDirs
  | some c => do
    if c.routerstatusList.length = 0 then return responsibleDirs
    let nodes ← hsdirNodes c c.routerstatusList
    if nodes.length = 0 then return responsibleDirs
    let (sortedNodes, cmpFct) :=
      if forFetching then
        ((env.smartlistSort HsdirIndex.fetch).sort nodes, compareDigestToFetchHsdirIndex)
      else if useSecondHsdirIndex then
        ((env.smartlistSort HsdirIndex.storeSecond).sort nodes, compareDigestToStoreSecondHsdirIndex)
      else ((env.smartlistSort HsdirIndex.storeFirst).sort nodes, compareDigestToStoreFirstHsdirIndex)
    let nToAdd := if forFetching then hsGetHsdirSpreadFetch env else hsGetHsdirSpreadStore env
    (List.range' 1 (hsGetHsdirNReplicas env).toNat).foldlM
      (addReplica env sortedNodes cmpFct nToAdd blindedPk timePeriodNum) responsibleDirs

end RendezMix.Source
