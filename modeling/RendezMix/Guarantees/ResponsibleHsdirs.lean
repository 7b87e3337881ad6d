import RendezMix.Library.RingChoice
import RendezMix.Source.HsCommon

/-!
# Where descriptors are stored and fetched

The directories for a descriptor are, replica by replica, the first ones met on the ring from
the place of the replica on that are not chosen yet. A client that fetches from no more nodes
than the service stores to finds each of them among those of the service.
-/
namespace RendezMix.Guarantees
open Library.ByteStrings Library.Sorting Library.RingChoice Source Node HsdirIndex
open Std (TransCmp OrientedCmp)

/-- The index of a node that is used. -/
def indexOf (forFetching useSecond : Bool) : HsdirIndex → Bytes 32 :=
  if forFetching then fetch
  else if useSecond then storeSecond else storeFirst

def nodeIndex (index : HsdirIndex → Bytes 32) (n : Node) : Bytes 32 := index n.hsdirIndex

/-- How many nodes are added for each replica. -/
def spread (env : HsdirEnv) (forFetching : Bool) : Nat :=
  (if forFetching then hsGetHsdirSpreadFetch env else hsGetHsdirSpreadStore env).toNat

/-- The nodes of the consensus that are directories. -/
def eligible (c : FreshConsensus) : List Node :=
  (c.routerstatusList.filterMap fun rs => c.nodeGetById rs.identityDigest).filter fun n =>
    n.supportsV3Hsdir && n.rs.isHsDir && nodeHasHsdirIndex n

/-- The directories as they are met from a position on. -/
def metFrom (c : FreshConsensus) (index : HsdirIndex → Bytes 32) (position : Bytes 32) :
    List Routerstatus :=
  ((insertionSorter (clockwiseBy compareIndices (nodeIndex index) position)).sort (eligible c)).map
    rs

/-- The directories from the place of each replica on. -/
def metForReplicas (env : HsdirEnv) (index : HsdirIndex → Bytes 32) (blindedPk : Bytes 32)
    (timePeriodNum : UInt64) : List (List Routerstatus) :=
  match env.liveConsensus with
  | none => []
  | some c => (List.range' 1 (hsGetHsdirNReplicas env).toNat).map fun replica =>
    metFrom c index (hsBuildHsIndex env replica blindedPk timePeriodNum)

/-- No two directories have the same index. -/
def DistinctIndices (env : HsdirEnv) (index : HsdirIndex → Bytes 32) : Prop :=
  ∀ c, env.liveConsensus = some c → ((eligible c).map (nodeIndex index)).Nodup

/-! ## The list of nodes -/

theorem hsdirNodes_spec (c : FreshConsensus) {rss : List Routerstatus}
    (listed : rss ⊆ c.routerstatusList) :
    hsdirNodes c rss = some ((rss.filterMap fun rs => c.nodeGetById rs.identityDigest).filter fun n =>
      n.supportsV3Hsdir && n.rs.isHsDir && nodeHasHsdirIndex n) := by
  induction rss with
  | nil => rfl
  | cons rs rss ih =>
    obtain ⟨first, rest⟩ := List.cons_subset.mp listed
    obtain ⟨n, found, rfl⟩ := c.fresh rs first
    have step : (n.rs :: rss).filterMap (fun rs => c.nodeGetById rs.identityDigest)
        = n :: rss.filterMap fun rs => c.nodeGetById rs.identityDigest :=
      List.filterMap_cons_some found
    rw [hsdirNodes, found, ih rest, step]
    simp only [Option.bind_eq_bind, Option.bind_some]
    by_cases supports : (n.supportsV3Hsdir && n.rs.isHsDir) = true
    · rw [if_pos supports]
      by_cases has : nodeHasHsdirIndex n = true
      · rw [List.filter_cons_of_pos (by rw [supports, has]; rfl), has]
        rfl
      · rw [Bool.not_eq_true] at has
        rw [List.filter_cons_of_neg (by rw [has, Bool.and_false]; exact Bool.false_ne_true), has]
        rfl
    · rw [if_neg supports, List.filter_cons_of_neg]
      · rfl
      · intro both
        rw [Bool.and_eq_true] at both
        exact supports both.1

variable {env : HsdirEnv} {c : FreshConsensus} {index : HsdirIndex → Bytes 32} {nodes : List Node}

theorem eligible_node {n : Node} (member : n ∈ eligible c) :
    c.nodeGetById n.rs.identityDigest = some n := by
  obtain ⟨rs, listed, found⟩ := List.mem_filterMap.mp (List.mem_filter.mp member).1
  obtain ⟨other, found', same⟩ := c.fresh rs listed
  rw [found, Option.some.injEq] at found'
  rw [found', same, ← found', found]

theorem eligible_rs_nodup (distinct : (eligible c).Nodup) : ((eligible c).map rs).Nodup := by
  apply List.Nodup.map_on _ distinct
  intro n first n' second same
  have found := eligible_node first
  rw [same, eligible_node second, Option.some.injEq] at found
  exact found.symm

/-! ## One replica -/

/-- The index after `i` turns of the loop. -/
def turnedIdx (len start i : Nat) : Nat := if start + i < len then start + i else start + i - len

theorem turned_getElem? {α : Type*} {l : List α} {start i : Nat} (inside : start < l.length)
    (bound : i < l.length) :
    (l.drop start ++ l.take start)[i]? = l[turnedIdx l.length start i]? := by
  rw [turnedIdx]
  by_cases early : start + i < l.length
  · rw [if_pos early, List.getElem?_append_left (by rw [List.length_drop]; omega),
      List.getElem?_drop]
  · rw [if_neg early, List.getElem?_append_right (by rw [List.length_drop]; omega),
      List.length_drop, List.getElem?_take_of_lt (by omega)]
    congr 1
    omega

/-- The loop takes the first nodes of the turned list that are not chosen yet. -/
theorem addDirs_spec {nodes ring : List Node} {start : Nat} (inside : start < nodes.length)
    (turned : ring = nodes.drop start ++ nodes.take start) (once : (ring.map rs).Nodup)
    {nToAdd : Int} (fuel i : Nat) (bound : i < nodes.length) (enough : nodes.length < fuel + i)
    (k : Nat) {nAdded : Int} (left : nAdded + k = nToAdd) (dirs : List Routerstatus) :
    addDirs nodes start nToAdd fuel (turnedIdx nodes.length start i) nAdded dirs
      = some (chooseFirst k dirs ((ring.drop i).map rs)) := by
  have length : ring.length = nodes.length := by
    rw [turned, List.length_append, List.length_drop, List.length_take]
    omega
  induction fuel generalizing i k nAdded dirs with
  | zero => omega
  | succ fuel ih =>
    have at_idx : nodes[turnedIdx nodes.length start i]? = some ring[i] := by
      rw [← turned_getElem? inside bound, ← turned, List.getElem?_eq_getElem (by omega)]
    rw [addDirs]
    by_cases more : nAdded < nToAdd
    · obtain ⟨k, rfl⟩ : ∃ k', k = k' + 1 := ⟨k - 1, by omega⟩
      have parts : (ring.drop i).map rs = ring[i].rs :: (ring.drop (i + 1)).map rs := by
        rw [List.drop_eq_getElem_cons (by omega), List.map_cons]
      have tail := once
      rw [← List.take_append_drop i ring, List.map_append, parts] at tail
      have later := (List.nodup_cons.mp tail.of_append_right).1
      generalize step : (if turnedIdx nodes.length start i + 1 = nodes.length then 0
        else turnedIdx nodes.length start i + 1) = next
      have rest : ∀ (k' : Nat) (nAdded' : Int) (dirs' : List Routerstatus), nAdded' + (k' : Int) = nToAdd →
          (if next = start then some dirs' else addDirs nodes start nToAdd fuel next nAdded' dirs')
          = some (chooseFirst k' dirs' ((ring.drop (i + 1)).map rs)) := by
        intro k' nAdded' dirs' left'
        by_cases last : i + 1 = nodes.length
        · have back : next = start := by
            rw [← step, turnedIdx]
            split_ifs <;> omega
          rw [if_pos back, List.drop_of_length_le (by omega), List.map_nil, chooseFirst_nil]
        · have onward : next ≠ start ∧ next = turnedIdx nodes.length start (i + 1) := by
            rw [← step, turnedIdx, turnedIdx]
            split_ifs <;> omega
          rw [if_neg onward.1, onward.2]
          exact ih (i + 1) (by omega) (by omega) k' left' dirs'
      rw [if_pos more, at_idx]
      simp only [Option.bind_eq_bind, Option.bind_some]
      rw [parts]
      by_cases already : ring[i].rs ∈ dirs
      · rw [if_pos already, chooseFirst_skip already]
        exact rest _ _ _ left
      · rw [if_neg already, chooseFirst_take already later]
        exact rest _ _ _ (by omega)
    · have none : k = 0 := by omega
      rw [if_neg more, none, chooseFirst_zero]

/-- A list of directories in the order of their indices. -/
structure OnRing (c : FreshConsensus) (index : HsdirIndex → Bytes 32) (nodes : List Node) :
    Prop where
  perm : (eligible c).Perm nodes
  ordered : nodes.Pairwise fun a b => compareIndices (nodeIndex index a) (nodeIndex index b) = .lt

theorem sort_onRing (distinct : ((eligible c).map (nodeIndex index)).Nodup)
    (s : Sorter (compareNodeHsdirIndex index)) : OnRing c index (s.sort (eligible c)) := by
  constructor
  · exact (s.perm _).symm
  · have apart : (s.sort (eligible c)).Pairwise fun a b => nodeIndex index a ≠ nodeIndex index b := by
      have sorted := ((s.perm (eligible c)).map (nodeIndex index)).nodup_iff.mpr distinct
      exact List.pairwise_map.mp sorted
    apply ((s.ordered (eligible c)).and apart).imp
    intro a b both
    rw [Ordering.isLE_iff_eq_lt_or_eq_eq] at both
    rcases both.1 with lt | eq
    · exact lt
    · exact absurd (Subtype.ext (Std.LawfulEqOrd.eq_of_compare eq)) both.2

theorem OnRing.sortedFor (ring : OnRing c index nodes) (key : Bytes 32) :
    SortedFor (compareDigestToHsdirIndex index key) nodes := by
  apply ring.ordered.imp
  intro a b lt
  constructor
  · intro greater
    exact OrientedCmp.gt_iff_lt.mpr
      (TransCmp.lt_trans lt (OrientedCmp.gt_iff_lt.mp greater))
  · intro less
    exact TransCmp.lt_trans less lt

theorem OnRing.place (ring : OnRing c index nodes) {key : Bytes 32} {idx : Nat} {found : Bool}
    (place : PlaceOf (compareDigestToHsdirIndex index key) nodes idx found) :
    (∀ n ∈ nodes.take idx, compareIndices (nodeIndex index n) key = .lt)
      ∧ ∀ n ∈ nodes.drop idx, compareIndices (nodeIndex index n) key ≠ .lt := by
  constructor
  · intro n member
    obtain ⟨i, at_i⟩ := List.getElem?_of_mem member
    obtain ⟨bound, _⟩ := List.getElem?_eq_some_iff.mp at_i
    have early : i < idx := by
      rw [List.length_take] at bound
      omega
    rw [List.getElem?_take_of_lt early] at at_i
    rcases place.before i n early at_i with greater | ⟨matched, equal⟩
    · exact OrientedCmp.gt_iff_lt.mp greater
    · obtain ⟨hit, at_idx, equal'⟩ := place.matched matched
      obtain ⟨first, rfl⟩ := List.getElem?_eq_some_iff.mp at_i
      obtain ⟨second, rfl⟩ := List.getElem?_eq_some_iff.mp at_idx
      have lt := List.pairwise_iff_getElem.mp ring.ordered i idx first second early
      have same : compareIndices (nodeIndex index nodes[i]) (nodeIndex index nodes[idx]) = .eq :=
        TransCmp.eq_trans (OrientedCmp.eq_symm equal) equal'
      rw [same] at lt
      cases lt
  · intro n member less
    obtain ⟨i, at_i⟩ := List.getElem?_of_mem member
    rw [List.getElem?_drop] at at_i
    have greater := OrientedCmp.gt_iff_lt.mpr less
    rcases place.after (idx + i) n (Nat.le_add_right _ _) at_i with lt | ⟨_, equal⟩
    · cases greater.symm.trans lt
    · cases greater.symm.trans equal

section

variable {k : Nat} {nToAdd : Int} (ring : OnRing c index nodes)
  (distinct : (nodes.map rs).Nodup) (more : nodes.length ≠ 0) (spread : (k : Int) = nToAdd)
  (blindedPk : Bytes 32) (timePeriodNum : UInt64)

include ring distinct more spread

theorem addReplica_spec (dirs : List Routerstatus) (replica : Nat) :
    addReplica env nodes (compareDigestToHsdirIndex index) nToAdd blindedPk timePeriodNum dirs replica
      = some (chooseFirst k dirs
        (metFrom c index (hsBuildHsIndex env replica blindedPk timePeriodNum))) := by
  rw [addReplica, metFrom]
  generalize hsBuildHsIndex env replica blindedPk timePeriodNum = key
  obtain ⟨idx, found, search, place⟩ := smartlistBsearchIdx_spec (ring.sortedFor key)
  obtain ⟨before, after⟩ := ring.place place
  have met := sort_clockwise_eq ring.perm ring.ordered before after
    (insertionSorter (clockwiseBy compareIndices (nodeIndex index) key))
  rw [met]
  simp only [search, Option.bind_eq_bind, Option.bind_some]
  have turned : nodes.drop idx ++ nodes.take idx
      = nodes.drop (if idx = nodes.length then 0 else idx)
        ++ nodes.take (if idx = nodes.length then 0 else idx) := by
    by_cases past : idx = nodes.length
    · rw [if_pos past, past, List.drop_length, List.take_length, List.drop_zero, List.take_zero,
        List.nil_append, List.append_nil]
    · rw [if_neg past]
  have inside : (if idx = nodes.length then 0 else idx) < nodes.length := by
    have le := place.le
    split_ifs <;> omega
  have once : ((nodes.drop idx ++ nodes.take idx).map rs).Nodup := by
    rw [List.map_append]
    apply List.nodup_append_comm.mp
    rwa [← List.map_append, List.take_append_drop]
  have start : turnedIdx nodes.length (if idx = nodes.length then 0 else idx) 0
      = if idx = nodes.length then 0 else idx := by
    rw [turnedIdx, Nat.add_zero, if_pos inside]
  have run := addDirs_spec inside turned once (nodes.length + 1) 0 (by omega) (by omega) k
    (show (0 : Int) + k = nToAdd by omega) dirs
  rwa [start] at run

/-! ## All replicas -/

theorem addReplicas_spec (replicas : List Nat) (dirs : List Routerstatus) :
    replicas.foldlM (addReplica env nodes (compareDigestToHsdirIndex index) nToAdd blindedPk
        timePeriodNum) dirs
      = some (chooseEach k (replicas.map fun replica =>
        metFrom c index (hsBuildHsIndex env replica blindedPk timePeriodNum)) dirs) := by
  induction replicas generalizing dirs with
  | nil => rfl
  | cons replica replicas ih =>
    rw [List.foldlM_cons, addReplica_spec ring distinct more spread, Option.bind_eq_bind,
      Option.bind_some, ih]
    rfl

end

theorem metFrom_none (none : eligible c = []) (index : HsdirIndex → Bytes 32)
    (position : Bytes 32) : metFrom c index position = [] := by
  have perm := (insertionSorter (clockwiseBy compareIndices (nodeIndex index) position)).perm
    (eligible c)
  rw [none] at perm
  rw [metFrom, none, perm.eq_nil, List.map_nil]

theorem spread_eq (env : HsdirEnv) (forFetching : Bool) :
    ((spread env forFetching : Nat) : Int)
      = if forFetching then hsGetHsdirSpreadFetch env else hsGetHsdirSpreadStore env := by
  have fetch := networkstatusGetParam_range (env.ns "hsdir_spread_fetch") 3
    (show (1 : Int) ≤ 128 by decide)
  have store := networkstatusGetParam_range (env.ns "hsdir_spread_store") 4
    (show (1 : Int) ≤ 128 by decide)
  rw [spread]
  apply Int.toNat_of_nonneg
  rw [hsGetHsdirSpreadFetch, hsGetHsdirSpreadStore]
  split <;> omega

/-- The call returns the first nodes that are not chosen yet from the place of each replica on. -/
theorem hsGetResponsibleHsdirs_run (env : HsdirEnv) (blindedPk : Bytes 32) (timePeriodNum : UInt64)
    {useSecond forFetching : Bool} (distinct : DistinctIndices env (indexOf forFetching useSecond))
    (dirs : List Routerstatus) :
    hsGetResponsibleHsdirs env blindedPk timePeriodNum useSecond forFetching dirs
      = some (chooseEach (spread env forFetching)
        (metForReplicas env (indexOf forFetching useSecond) blindedPk timePeriodNum) dirs) := by
  rw [hsGetResponsibleHsdirs, metForReplicas]
  cases consensus : env.liveConsensus with
  | none => rfl
  | some c =>
    have distinct := distinct c consensus
    have noneMet : eligible c = [] → ∀ replicas : List Nat, ∀ met ∈ replicas.map fun replica =>
        metFrom c (indexOf forFetching useSecond) (hsBuildHsIndex env replica blindedPk timePeriodNum),
        met = [] := by
      intro none replicas met member
      obtain ⟨replica, _, rfl⟩ := List.mem_map.mp member
      exact metFrom_none none _ _
    have nodes : hsdirNodes c c.routerstatusList = some (eligible c) :=
      hsdirNodes_spec c (List.Subset.refl _)
    simp only
    by_cases unlisted : c.routerstatusList.length = 0
    · have none : eligible c = [] := by
        rw [eligible, List.length_eq_zero_iff.mp unlisted]
        rfl
      rw [if_pos unlisted, chooseEach_none (noneMet none _)]
      rfl
    · rw [if_neg unlisted, nodes]
      simp only [Option.bind_eq_bind, Option.bind_some]
      by_cases none : (eligible c).length = 0
      · rw [if_pos none, chooseEach_none (noneMet (List.length_eq_zero_iff.mp none) _)]
        rfl
      · have sorted : ∀ s : Sorter (compareNodeHsdirIndex (indexOf forFetching useSecond)),
            OnRing c (indexOf forFetching useSecond) (s.sort (eligible c))
              ∧ ((s.sort (eligible c)).map rs).Nodup ∧ (s.sort (eligible c)).length ≠ 0 := by
          intro s
          refine ⟨sort_onRing distinct s, ?_, ?_⟩
          · have once := eligible_rs_nodup (List.Nodup.of_map _ distinct)
            exact ((s.perm _).map rs).nodup_iff.mpr once
          · rwa [(s.perm _).length_eq]
        rw [if_neg none]
        cases forFetching with
        | true =>
          obtain ⟨ring, once, more⟩ := sorted (env.smartlistSort fetch)
          exact addReplicas_spec ring once more (spread_eq env true) _ _ _ _
        | false =>
          cases useSecond with
          | true =>
            obtain ⟨ring, once, more⟩ := sorted (env.smartlistSort storeSecond)
            exact addReplicas_spec ring once more (spread_eq env false) _ _ _ _
          | false =>
            obtain ⟨ring, once, more⟩ := sorted (env.smartlistSort storeFirst)
            exact addReplicas_spec ring once more (spread_eq env false) _ _ _ _

theorem metFrom_nodup (distinct : ((eligible c).map (nodeIndex index)).Nodup)
    (position : Bytes 32) : (metFrom c index position).Nodup := by
  have perm := (insertionSorter (clockwiseBy compareIndices (nodeIndex index) position)).perm
    (eligible c)
  exact (perm.map rs).nodup_iff.mpr (eligible_rs_nodup (List.Nodup.of_map _ distinct))

theorem metForReplicas_nodup (distinct : DistinctIndices env index) (blindedPk : Bytes 32)
    (timePeriodNum : UInt64) :
    ∀ met ∈ metForReplicas env index blindedPk timePeriodNum, met.Nodup := by
  intro met member
  rw [metForReplicas] at member
  cases consensus : env.liveConsensus with
  | none =>
    rw [consensus] at member
    cases member
  | some c =>
    rw [consensus] at member
    obtain ⟨replica, _, rfl⟩ := List.mem_map.mp member
    exact metFrom_nodup (distinct c consensus) _

theorem metFrom_congr {index index' : HsdirIndex → Bytes 32}
    (distinct : ((eligible c).map (nodeIndex index)).Nodup)
    (equal : ∀ n ∈ eligible c, nodeIndex index n = nodeIndex index' n) (position : Bytes 32) :
    metFrom c index position = metFrom c index' position := by
  have agree : ∀ a ∈ eligible c, ∀ b ∈ eligible c,
      clockwiseBy compareIndices (nodeIndex index) position a b
        = clockwiseBy compareIndices (nodeIndex index') position a b := by
    intro a first b second
    rw [clockwiseBy, clockwiseBy, equal a first, equal b second]
  rw [metFrom, metFrom, Sorter.eq_of_agree _ _ (List.Perm.refl _) agree]
  intro a first b second same
  rw [clockwiseBy, clockwise, compareLex_eq_eq] at same
  have keys := Subtype.ext (Std.LawfulEqOrd.eq_of_compare same.2)
  exact List.inj_on_of_nodup_map distinct first second keys

/-- The nodes have the indices for fetching also for storing. -/
def SameIndices (env : HsdirEnv) (useSecond : Bool) : Prop :=
  ∀ c, env.liveConsensus = some c → ∀ n ∈ eligible c,
    nodeIndex (indexOf true false) n = nodeIndex (indexOf false useSecond) n

section

variable {useSecond : Bool} (distinct : DistinctIndices env (indexOf true false))
  (same : SameIndices env useSecond)

include distinct same

theorem metForReplicas_congr (blindedPk : Bytes 32) (timePeriodNum : UInt64) :
    metForReplicas env (indexOf true false) blindedPk timePeriodNum
      = metForReplicas env (indexOf false useSecond) blindedPk timePeriodNum := by
  rw [metForReplicas, metForReplicas]
  cases consensus : env.liveConsensus with
  | none => rfl
  | some c =>
    apply List.map_congr_left
    intro replica _
    exact metFrom_congr (distinct c consensus) (same c consensus) _

theorem distinctIndices_store : DistinctIndices env (indexOf false useSecond) := by
  intro c consensus
  rw [← List.map_congr_left (same c consensus)]
  exact distinct c consensus

end

/-- The directories are chosen replica by replica, each of them once; and where the nodes have
the same indices for both, the nodes that a client asks are among those that a service stores to. -/
theorem hsGetResponsibleHsdirs_chooses (env : HsdirEnv) (blindedPk : Bytes 32)
    (timePeriodNum : UInt64) :
    (∀ useSecond forFetching, DistinctIndices env (indexOf forFetching useSecond) →
      ∃ dirs, hsGetResponsibleHsdirs env blindedPk timePeriodNum useSecond forFetching [] = some dirs
        ∧ dirs.Nodup
        ∧ dirs = chooseEach (spread env forFetching)
          (metForReplicas env (indexOf forFetching useSecond) blindedPk timePeriodNum) [])
    ∧ ∀ useSecond, DistinctIndices env (indexOf true false) → SameIndices env useSecond →
      hsGetHsdirSpreadFetch env ≤ hsGetHsdirSpreadStore env →
      ∃ asked stored,
        hsGetResponsibleHsdirs env blindedPk timePeriodNum false true [] = some asked
          ∧ hsGetResponsibleHsdirs env blindedPk timePeriodNum useSecond false [] = some stored
          ∧ asked ⊆ stored := by
  constructor
  · intro useSecond forFetching distinct
    refine ⟨_, hsGetResponsibleHsdirs_run env blindedPk timePeriodNum distinct [], ?_, rfl⟩
    exact chooseEach_nodup (metForReplicas_nodup distinct blindedPk timePeriodNum) List.nodup_nil
  · intro useSecond distinct same le
    refine ⟨_, _, hsGetResponsibleHsdirs_run env blindedPk timePeriodNum distinct [],
      hsGetResponsibleHsdirs_run env blindedPk timePeriodNum (distinctIndices_store distinct same) [],
      ?_⟩
    rw [metForReplicas_congr distinct same]
    apply chooseEach_subset _ _ (List.Subset.refl _)
    have fetch := spread_eq env true
    have store := spread_eq env false
    simp only [if_true] at fetch
    omega

/-- A directory whose identity and indices consist of one byte. -/
def directoryOf (byte : UInt8) : Node where
  rs := ⟨⟨List.replicate 20 byte, List.length_replicate⟩, true⟩
  supportsV3Hsdir := true
  hasPreferredDescriptor := true
  hsdirIndex :=
    let index : Bytes 32 := ⟨List.replicate 32 byte, List.length_replicate⟩
    ⟨index, index, index⟩

/-- Two directories, and places of replicas before the first one. -/
def twoDirectories : HsdirEnv where
  sha3 := fun _ => ⟨List.replicate 32 0, List.length_replicate⟩
  smartlistSort := fun index => insertionSorter (compareNodeHsdirIndex index)
  ns := fun _ => none
  testingTorNetwork := false
  protocolRunDuration := 86400
  liveConsensus := some
    { routerstatusList := [(directoryOf 2).rs, (directoryOf 1).rs]
      nodeGetById := fun id => [directoryOf 1, directoryOf 2].find? fun n => n.rs.identityDigest = id
      fresh := by decide }

theorem hsGetResponsibleHsdirs_chooses_two :
    (∃ dirs, hsGetResponsibleHsdirs twoDirectories (directoryOf 3).hsdirIndex.fetch 7 false true []
        = some dirs ∧ dirs.Nodup
      ∧ dirs = chooseEach (spread twoDirectories true)
        (metForReplicas twoDirectories (indexOf true false) (directoryOf 3).hsdirIndex.fetch 7) [])
    ∧ ∃ asked stored,
      hsGetResponsibleHsdirs twoDirectories (directoryOf 3).hsdirIndex.fetch 7 false true []
          = some asked
        ∧ hsGetResponsibleHsdirs twoDirectories (directoryOf 3).hsdirIndex.fetch 7 true false []
          = some stored
        ∧ asked ⊆ stored :=
  have distinct : DistinctIndices twoDirectories (indexOf true false) := by
    intro c consensus
    cases consensus
    decide
  have same : SameIndices twoDirectories true := by
    intro c consensus
    cases consensus
    decide
  have both := hsGetResponsibleHsdirs_chooses twoDirectories (directoryOf 3).hsdirIndex.fetch 7
  ⟨both.1 false true distinct, both.2 true distinct same (by decide)⟩

end RendezMix.Guarantees
