import RendezMix.Guarantees.OomCounting

/-!
# What the memory handler recovers

The handler kills a prefix of the circuits, sorted by age, and stops when it
believes that enough memory was recovered. It is right about that, and about
the ages, exactly when no killed circuit holds a cell that one of its three
views misses.
-/
namespace RendezMix.Guarantees
open Source Library.Runs OomKill

/-! ## One round of the loop -/

section

variable (cfg : Config) (memToRecover : Nat) {c : CircPtr}

theorem freeOlderConns_done (now age : UInt32) (connectionArray : List ConnPtr) (conns : Conns)
    (memRecovered : Nat)
    (done : (freeOlderConns memToRecover now age connectionArray conns memRecovered).done = true) :
    memToRecover ≤
      (freeOlderConns memToRecover now age connectionArray conns memRecovered).memRecovered := by
  induction connectionArray generalizing conns memRecovered with
  | nil => simp [freeOlderConns] at done
  | cons c rest ih =>
    rw [freeOlderConns] at done ⊢
    dsimp only at done ⊢
    split
    · next younger => simp [younger] at done
    · next older =>
      rw [if_neg older] at done
      split
      · next freed =>
        rw [if_pos freed] at done
        split
        · next enough => exact enough
        · next below =>
          rw [if_neg below] at done
          exact ih _ _ done
      · next kept =>
        rw [if_neg kept] at done
        exact ih _ _ done

/-- The kill of `circ`, which is circuit `c` of `relay`. -/
structure Kills (cfg : Config) (relay : Relay) (c : CircPtr) (circ : Circuit) (kill : OomKill) :
    Prop where
  named : kill.circ = c
  counted : kill.n = nCellsInCircQueues circ
  before : kill.pre = relay
  after : kill.post = killCircuit cfg c relay

/-- What a round that has come to circuit `c` can lead to: the connections were
enough, the kill of the circuit was enough, or the rest of the list follows. -/
inductive Round (cfg : Config) (memToRecover : Nat) (now : UInt32) (c : CircPtr)
    (circlist : List (CircPtr × UInt32)) (relay : Relay) (circ : Circuit) : OomResult → Prop
  | swept (conns : Conns) (memRecovered : Nat) (enough : memToRecover ≤ memRecovered) :
      Round cfg memToRecover now c circlist relay circ ⟨[], relay, conns, memRecovered⟩
  | last (kill : OomKill) (conns : Conns) (kills : Kills cfg relay c circ kill)
      (enough : memToRecover ≤ kill.memRecovered) :
      Round cfg memToRecover now c circlist relay circ
        ⟨[kill], kill.post, conns, kill.memRecovered⟩
  | next (kill : OomKill) (connectionArray : List ConnPtr) (conns : Conns)
      (kills : Kills cfg relay c circ kill) (below : kill.memRecovered < memToRecover)
      (later : OomResult) (laterEq : later = killCircuits cfg memToRecover now circlist
        connectionArray kill.post conns kill.memRecovered) :
      Round cfg memToRecover now c circlist relay circ { later with kills := kill :: later.kills }

theorem killCircuits_round (now : UInt32) (c : CircPtr) (age : UInt32)
    (circlist : List (CircPtr × UInt32)) (connectionArray : List ConnPtr) (relay : Relay)
    (conns : Conns) (memRecovered : Nat) (circ : Circuit) (live : relay.circuits c = some circ) :
    Round cfg memToRecover now c circlist relay circ
      (killCircuits cfg memToRecover now ((c, age) :: circlist) connectionArray relay conns
        memRecovered) := by
  rw [killCircuits]
  split
  · next done => exact Round.swept _ _ (freeOlderConns_done _ _ _ _ _ _ done)
  · simp only [live]
    split
    · next enough => exact Round.last ⟨c, _, _, relay, _⟩ _ ⟨rfl, rfl, rfl, rfl⟩ enough
    · next below =>
      exact Round.next ⟨c, _, _, relay, _⟩ _ _ ⟨rfl, rfl, rfl, rfl⟩ (Nat.not_le.mp below) _ rfl

/-! ## The loop -/

/-- A kill of a circuit that was still as it is in `relay`. -/
def KillOf (relay : Relay) (kill : OomKill) : Prop :=
  ∃ circ, relay.circuits kill.circ = some circ ∧ kill.n = nCellsInCircQueues circ ∧
    freedCells kill.circ kill.pre kill.post = cellsFreed circ

theorem Kills.killOf {cfg : Config} {relay : Relay} {circ : Circuit} {kill : OomKill}
    (kills : Kills cfg relay c circ kill) (live : relay.circuits c = some circ) :
    KillOf relay kill := by
  obtain ⟨rfl, counted, before, after⟩ := kills
  refine ⟨circ, live, counted, ?_⟩
  rw [before, after]
  exact killCircuit_freedCells cfg kill.circ relay circ live

/-- A list of circuits to kill. -/
structure Listed (relay : Relay) (circlist : List CircPtr) : Prop where
  distinct : circlist.Nodup
  live : ∀ c ∈ circlist, ∃ circ, relay.circuits c = some circ

theorem Listed.same {relay : Relay} {circlist : List CircPtr}
    (listed : Listed relay (c :: circlist)) (other : CircPtr) (member : other ∈ circlist) :
    (killCircuit cfg c relay).circuits other = relay.circuits other := by
  have fresh := (List.nodup_cons.mp listed.distinct).1
  exact ((killCircuit_frames cfg c relay).others other (fun eq => fresh (eq ▸ member))).1

theorem Listed.tail {cfg : Config} {relay : Relay} {circlist : List CircPtr}
    (listed : Listed relay (c :: circlist)) : Listed (killCircuit cfg c relay) circlist := by
  refine ⟨(List.nodup_cons.mp listed.distinct).2, fun other member => ?_⟩
  rw [listed.same cfg other member]
  exact listed.live other (List.mem_cons_of_mem c member)

/-- With a large enough aim the inner loop runs to its end, always in the same way. -/
theorem freeOlderConns_unlimited (now age : UInt32) (connectionArray : List ConnPtr)
    (conns : Conns) (memRecovered : Nat) :
    ∃ sweep : ConnSweep, memRecovered ≤ sweep.memRecovered ∧ sweep.done = false ∧
      ∀ memToRecover, sweep.memRecovered < memToRecover →
        freeOlderConns memToRecover now age connectionArray conns memRecovered = sweep := by
  induction connectionArray generalizing conns memRecovered with
  | nil => exact ⟨⟨[], conns, memRecovered, false⟩, le_rfl, rfl, fun _ _ => rfl⟩
  | cons c rest ih =>
    by_cases younger : connGetBufferAge (conns c) now < age
    · refine ⟨⟨c :: rest, conns, memRecovered, false⟩, le_rfl, rfl, fun _ _ => ?_⟩
      simp only [freeOlderConns, if_pos younger]
    · by_cases frees :
        ((conns c).type = .dir ∧ (conns c).linkedConn = none) ∨ (conns c).isEdge
      · obtain ⟨sweep, grows, notDone, same⟩ := ih
          (Function.update conns c
            (singleConnFreeBytes { conns c with markedForClose := true }).2)
          (memRecovered + (singleConnFreeBytes { conns c with markedForClose := true }).1)
        refine ⟨sweep, (Nat.le_add_right _ _).trans grows, notDone, fun memToRecover above => ?_⟩
        have below := Nat.not_le.mpr (grows.trans_lt above)
        simp only [freeOlderConns, if_neg younger, if_pos frees, ge_iff_le, if_neg below]
        exact same memToRecover above
      · obtain ⟨sweep, grows, notDone, same⟩ := ih conns memRecovered
        refine ⟨sweep, grows, notDone, fun memToRecover above => ?_⟩
        simp only [freeOlderConns, if_neg younger, if_neg frees]
        exact same memToRecover above

section Kills

variable (now : UInt32) (circlist : List (CircPtr × UInt32))
  (connectionArray : List ConnPtr) (relay : Relay) (conns : Conns) (memRecovered : Nat)
  (listed : Listed relay (circlist.map Prod.fst))

include listed

/-- The handler kills a prefix of its list. -/
theorem killCircuits_kills :
    (killCircuits cfg memToRecover now circlist connectionArray relay conns memRecovered).kills.map
        circ <+: circlist.map Prod.fst ∧
      ∀ kill ∈ (killCircuits cfg memToRecover now circlist connectionArray relay conns
        memRecovered).kills, KillOf relay kill := by
  induction circlist generalizing connectionArray relay conns memRecovered with
  | nil => exact ⟨List.prefix_rfl, fun kill member => absurd member List.not_mem_nil⟩
  | cons entry rest ih =>
    obtain ⟨c, age⟩ := entry
    obtain ⟨circ, live⟩ := listed.live c List.mem_cons_self
    have round := killCircuits_round cfg memToRecover now c age rest connectionArray relay conns
      memRecovered circ live
    generalize killCircuits cfg memToRecover now ((c, age) :: rest) connectionArray relay conns
      memRecovered = result at round ⊢
    cases round with
    | swept => exact ⟨List.nil_prefix, fun kill member => absurd member List.not_mem_nil⟩
    | last kill conns kills enough =>
      refine ⟨?_, fun other member => ?_⟩
      · rw [List.map_cons, List.map_cons, kills.named]
        exact (List.prefix_cons_inj c).mpr List.nil_prefix
      · rw [List.mem_singleton.mp member]
        exact kills.killOf live
    | next kill connectionArray conns kills below later laterEq =>
      obtain ⟨order, each⟩ := ih connectionArray kill.post conns kill.memRecovered
        (kills.after ▸ listed.tail)
      rw [← laterEq] at order each
      refine ⟨?_, fun other member => ?_⟩
      · rw [List.map_cons, List.map_cons, kills.named]
        exact (List.prefix_cons_inj c).mpr order
      · rcases List.mem_cons.mp member with rfl | member
        · exact kills.killOf live
        · obtain ⟨circ', live', counts⟩ := each other member
          have same := listed.same cfg other.circ
            (order.subset (List.mem_map_of_mem member))
          rw [kills.after, same] at live'
          exact ⟨circ', live', counts⟩

theorem killCircuits_notAfter (first rest : List OomKill) (kill : OomKill)
    (split : (killCircuits cfg memToRecover now circlist connectionArray relay conns
      memRecovered).kills = first ++ kill :: rest) (more : rest ≠ []) :
    kill.memRecovered < memToRecover := by
  induction circlist generalizing connectionArray relay conns memRecovered first with
  | nil => simp [killCircuits] at split
  | cons entry circlist ih =>
    obtain ⟨c, age⟩ := entry
    obtain ⟨circ, live⟩ := listed.live c List.mem_cons_self
    have round := killCircuits_round cfg memToRecover now c age circlist connectionArray relay
      conns memRecovered circ live
    generalize killCircuits cfg memToRecover now ((c, age) :: circlist) connectionArray relay
      conns memRecovered = result at round split
    cases round with
    | swept => simp at split
    | last last conns kills enough =>
      rcases List.singleton_eq_append_iff.mp split with ⟨_, whole⟩ | ⟨_, whole⟩
      · exact absurd (List.cons.inj whole).2 more
      · cases whole
    | next head connectionArray conns kills below later laterEq =>
      cases first with
      | nil =>
        rw [← (List.cons.inj split).1]
        exact below
      | cons _ first =>
        exact ih connectionArray head.post conns head.memRecovered (kills.after ▸ listed.tail)
          first (laterEq ▸ (List.cons.inj split).2)

theorem killCircuits_notBefore :
    memToRecover ≤ (killCircuits cfg memToRecover now circlist connectionArray relay conns
        memRecovered).memRecovered ∨
      (killCircuits cfg memToRecover now circlist connectionArray relay conns
        memRecovered).kills.map circ = circlist.map Prod.fst := by
  induction circlist generalizing connectionArray relay conns memRecovered with
  | nil => exact Or.inr rfl
  | cons entry rest ih =>
    obtain ⟨c, age⟩ := entry
    obtain ⟨circ, live⟩ := listed.live c List.mem_cons_self
    have round := killCircuits_round cfg memToRecover now c age rest connectionArray relay conns
      memRecovered circ live
    generalize killCircuits cfg memToRecover now ((c, age) :: rest) connectionArray relay conns
      memRecovered = result at round ⊢
    cases round with
    | swept conns memRecovered enough => exact Or.inl enough
    | last kill conns kills enough => exact Or.inl enough
    | next kill connectionArray conns kills below later laterEq =>
      refine (ih connectionArray kill.post conns kill.memRecovered
        (kills.after ▸ listed.tail)).imp ?_ (fun all => ?_)
      · rw [← laterEq]
        exact id
      · rw [List.map_cons, List.map_cons, kills.named, laterEq, all]

theorem killCircuits_unlimited :
    ∃ bound, ∀ memToRecover, bound < memToRecover →
      (killCircuits cfg memToRecover now circlist connectionArray relay conns
        memRecovered).kills.map circ = circlist.map Prod.fst := by
  induction circlist generalizing connectionArray relay conns memRecovered with
  | nil => exact ⟨0, fun _ _ => rfl⟩
  | cons entry rest ih =>
    obtain ⟨c, age⟩ := entry
    obtain ⟨circ, live⟩ := listed.live c List.mem_cons_self
    obtain ⟨sweep, _, notDone, swept⟩ :=
      freeOlderConns_unlimited now age connectionArray conns memRecovered
    let recovered := sweep.memRecovered + nCellsInCircQueues circ * packedCellMemCost +
      circuitAllocInHalfStreams circ + (markedCircuitFreeStreamBytes circ sweep.conns).1
    obtain ⟨bound, all⟩ := ih sweep.rest (killCircuit cfg c relay)
      (markedCircuitFreeStreamBytes circ sweep.conns).2 recovered listed.tail
    refine ⟨max recovered bound, fun memToRecover above => ?_⟩
    have aboveRecovered : recovered < memToRecover := (le_max_left _ _).trans_lt above
    have aboveSweep : sweep.memRecovered < memToRecover := by
      omega
    have later := all memToRecover ((le_max_right _ _).trans_lt above)
    simp only [killCircuits, swept memToRecover aboveSweep, notDone, live, Bool.false_eq_true,
      if_false, ge_iff_le]
    rw [if_neg (Nat.not_le.mpr aboveRecovered), List.map_cons, List.map_cons]
    exact congrArg (List.cons c) later

end Kills

end

/-! ## What the handler is for -/

/-- `mem_recovered` with the cells that were counted replaced by the cells that
were freed. -/
def reallyRecovered (memRecovered : Nat) (kills : List OomKill) : Int :=
  memRecovered + (kills.map (fun kill =>
    ((packedCellMemCost * freedCells kill.circ kill.pre kill.post : Nat) : Int) -
      ((kill.n * packedCellMemCost : Nat) : Int))).sum

/-- The age of the oldest item that circuit `c` holds. -/
def circuitAge (relay : Relay) (conns : Conns) (now : UInt32) (c : CircPtr) : Nat :=
  ((relay.circuits c).map (oldestHeldAge now conns)).getD 0

/-- The handler accounts for the cells it frees, stops at the first circuit after
which enough was recovered, and kills the circuits with the oldest items. -/
structure OomSound (relay : Relay) (conns : Conns) (now : UInt32) (circlist : List CircPtr)
    (memToRecover : Nat) (result : OomResult) : Prop where
  accounted : ∀ kill ∈ result.kills, kill.n * packedCellMemCost =
    packedCellMemCost * freedCells kill.circ kill.pre kill.post
  notBefore : (memToRecover : Int) ≤ reallyRecovered result.memRecovered result.kills ∨
    ∀ c ∈ circlist, c ∈ result.kills.map circ
  notAfter : ∀ first kill rest, result.kills = first ++ kill :: rest → rest ≠ [] →
    reallyRecovered kill.memRecovered (first ++ [kill]) < memToRecover
  ordered : (result.kills.map circ).Pairwise (fun a b =>
    circuitAge relay conns now b ≤ circuitAge relay conns now a)
  worst : ∀ c ∈ result.kills.map circ, ∀ other ∈ circlist,
    other ∉ result.kills.map circ →
      circuitAge relay conns now other ≤ circuitAge relay conns now c

theorem reallyRecovered_of_accounted (memRecovered : Nat) (kills : List OomKill)
    (accounted : ∀ kill ∈ kills, kill.n * packedCellMemCost =
      packedCellMemCost * freedCells kill.circ kill.pre kill.post) :
    reallyRecovered memRecovered kills = memRecovered := by
  have none : ∀ kill ∈ kills, ((packedCellMemCost * freedCells kill.circ kill.pre kill.post : Nat) :
      Int) - ((kill.n * packedCellMemCost : Nat) : Int) = 0 := fun kill member => by
    rw [accounted kill member, sub_self]
  rw [reallyRecovered, List.map_congr_left none]
  simp

theorem ageTmp_toNat (relay : Relay) (conns : Conns) (now : UInt32) (c : CircPtr)
    (circ : Circuit) (live : relay.circuits c = some circ) (inOrder : OldestAtHead now conns circ)
    (accountable : Accountable circ) :
    (ageTmp relay conns now c).toNat = circuitAge relay conns now c := by
  have cells := circuitMaxQueuedCellAge_toNat circ now inOrder.cells
  have data := circuitMaxQueuedDataAge_toNat circ conns now inOrder.chunks
  have age : (circuitMaxQueuedItemAge circ conns now).toNat =
      max (circuitMaxQueuedCellAge circ now).toNat (circuitMaxQueuedDataAge circ conns now).toNat := by
    rw [max_comm]
    exact olderAge_toNat _ _
  simp only [ageTmp, circuitAge, live, Option.map_some, Option.getD_some, oldestHeldAge]
  rw [age, cells, data]
  congr 1
  unfold queuesOf
  split
  · next isOr =>
    obtain ⟨outbound, inbound⟩ := accountable.1 isOr
    simp [outbound, inbound, oldest_append]
  · simp

/-- The circuits as the handler visits them. -/
def agedCircuits (smartlist : SmartlistSort) (relay : Relay) (conns : Conns) (now : UInt32)
    (circlist : List CircPtr) : List (CircPtr × UInt32) :=
  smartlist.sort Prod.snd (circlist.map (fun c => (c, ageTmp relay conns now c)))

section

variable (smartlist : SmartlistSort) (relay : Relay) (conns : Conns) (now : UInt32)
  (circlist : List CircPtr)

theorem agedCircuits_perm :
    ((agedCircuits smartlist relay conns now circlist).map Prod.fst).Perm circlist := by
  have sorted := (smartlist.perm Prod.snd
    (circlist.map (fun c => (c, ageTmp relay conns now c)))).map Prod.fst
  rwa [List.map_map, show Prod.fst ∘ (fun c => (c, ageTmp relay conns now c)) = id from rfl,
    List.map_id] at sorted

theorem agedCircuits_listed (listed : Listed relay circlist) :
    Listed relay ((agedCircuits smartlist relay conns now circlist).map Prod.fst) := by
  have perm := agedCircuits_perm smartlist relay conns now circlist
  exact ⟨perm.nodup_iff.mpr listed.distinct, fun c member => listed.live c (perm.subset member)⟩

/-- Accountable circuits are visited in the order of their oldest items. -/
theorem agedCircuits_ordered (listed : Listed relay circlist)
    (inOrder : ∀ c ∈ circlist, ∀ circ, relay.circuits c = some circ → OldestAtHead now conns circ)
    (accountable : ∀ c ∈ circlist, ∀ circ, relay.circuits c = some circ → Accountable circ) :
    ((agedCircuits smartlist relay conns now circlist).map Prod.fst).Pairwise (fun a b =>
      circuitAge relay conns now b ≤ circuitAge relay conns now a) := by
  have entries : ∀ entry ∈ agedCircuits smartlist relay conns now circlist,
      entry.2.toNat = circuitAge relay conns now entry.1 := by
    intro entry member
    obtain ⟨c, listedHere, rfl⟩ := List.mem_map.mp ((smartlist.perm _ _).subset member)
    obtain ⟨circ, live⟩ := listed.live c listedHere
    exact ageTmp_toNat relay conns now c circ live (inOrder c listedHere circ live)
      (accountable c listedHere circ live)
  rw [List.pairwise_map]
  refine (smartlist.sorted Prod.snd _).imp_of_mem (fun {a b} first second le => ?_)
  rw [← entries a first, ← entries b second]
  exact UInt32.le_iff_toNat_le.mp le

end

theorem killOf_accounted_iff (relay : Relay) (kill : OomKill) (circ : Circuit)
    (live : relay.circuits kill.circ = some circ) (isKill : KillOf relay kill) :
    kill.n * packedCellMemCost =
        packedCellMemCost * freedCells kill.circ kill.pre kill.post ↔ Accountable circ := by
  obtain ⟨circ', live', counted, freed⟩ := isKill
  rw [live] at live'
  cases live'
  rw [counted, freed, Nat.mul_comm, Nat.mul_right_inj (by decide : packedCellMemCost ≠ 0)]
  exact nCellsInCircQueues_eq_cellsFreed_iff circ

/-- Where all circuits are accountable, the handler does what it is for. -/
theorem killCircuits_sound (cfg : Config) (memToRecover : Nat) (smartlist : SmartlistSort)
    (now : UInt32) (circlist : List CircPtr) (connectionArray : List ConnPtr) (relay : Relay)
    (conns : Conns) (listed : Listed relay circlist)
    (inOrder : ∀ c ∈ circlist, ∀ circ, relay.circuits c = some circ → OldestAtHead now conns circ)
    (accountable : ∀ c ∈ circlist, ∀ circ, relay.circuits c = some circ → Accountable circ) :
    OomSound relay conns now circlist memToRecover
      (killCircuits cfg memToRecover now (agedCircuits smartlist relay conns now circlist)
        connectionArray relay conns 0) := by
  have perm := agedCircuits_perm smartlist relay conns now circlist
  have aged := agedCircuits_listed smartlist relay conns now circlist listed
  have ordered := agedCircuits_ordered smartlist relay conns now circlist listed inOrder accountable
  obtain ⟨order, each⟩ :=
    killCircuits_kills cfg memToRecover now _ connectionArray relay conns 0 aged
  have notAfter := killCircuits_notAfter cfg memToRecover now _ connectionArray relay conns 0 aged
  have notBefore := killCircuits_notBefore cfg memToRecover now _ connectionArray relay conns 0 aged
  generalize killCircuits cfg memToRecover now (agedCircuits smartlist relay conns now circlist)
    connectionArray relay conns 0 = result at order each notAfter notBefore ⊢
  have accounted : ∀ kill ∈ result.kills, kill.n * packedCellMemCost =
      packedCellMemCost * freedCells kill.circ kill.pre kill.post := by
    intro kill member
    have listedHere := perm.subset (order.subset (List.mem_map_of_mem member))
    obtain ⟨circ, live⟩ := listed.live kill.circ listedHere
    exact (killOf_accounted_iff relay kill circ live (each kill member)).mpr
      (accountable kill.circ listedHere circ live)
  refine ⟨accounted, ?_, fun first kill rest split more => ?_, ordered.sublist order.sublist, ?_⟩
  · rw [reallyRecovered_of_accounted _ _ accounted, Nat.cast_le]
    refine notBefore.imp_right (fun all c member => ?_)
    rw [all]
    exact perm.symm.subset member
  · have through : ∀ other ∈ first ++ [kill], other ∈ result.kills := by
      intro other member
      rw [split]
      rcases List.mem_append.mp member with earlier | here
      · exact List.mem_append_left _ earlier
      · rw [List.mem_singleton.mp here]
        exact List.mem_append_right _ List.mem_cons_self
    rw [reallyRecovered_of_accounted _ _ (fun other member => accounted other (through other member)),
      Nat.cast_lt]
    exact notAfter first rest kill split more
  · intro c killed other member spared
    obtain ⟨rest, split⟩ := order
    rw [← split] at ordered perm
    have left := (List.mem_append.mp (perm.symm.subset member)).resolve_left spared
    exact (List.pairwise_append.mp ordered).2.2 c killed other left

/-- Whatever the allocation, `circuits_handle_oom` accounts for the cells it frees,
stops in time and kills in the order of the oldest items, if and only if no
or_circuit holds cells in a delay queue and no origin circuit that stays unmarked
holds cells. -/
theorem circuitsHandleOom_sound_iff (cfg : Config) (maxMemInQueues : Nat)
    (smartlist : SmartlistSort) (now : UInt32) (circlist : List CircPtr)
    (connectionArray : List ConnPtr) (relay : Relay) (conns : Conns)
    (listed : Listed relay circlist)
    (inOrder : ∀ c ∈ circlist, ∀ circ, relay.circuits c = some circ → OldestAtHead now conns circ) :
    (∀ currentAllocation, OomSound relay conns now circlist
        (currentAllocation - oomMemTarget maxMemInQueues)
        (circuitsHandleOom cfg maxMemInQueues smartlist currentAllocation now circlist
          connectionArray relay conns)) ↔
      ∀ c ∈ circlist, ∀ circ, relay.circuits c = some circ → Accountable circ := by
  constructor
  · intro sound c member circ live
    have aged := agedCircuits_listed smartlist relay conns now circlist listed
    obtain ⟨bound, all⟩ := killCircuits_unlimited cfg now _
      (smartlist.sort (fun p => connGetBufferAge (conns p) now) connectionArray) relay conns 0 aged
    have handled := sound (oomMemTarget maxMemInQueues + (bound + 1))
    have above : ¬ oomMemTarget maxMemInQueues + (bound + 1) ≤ oomMemTarget maxMemInQueues := by
      omega
    rw [circuitsHandleOom, if_neg above, Nat.add_sub_cancel_left] at handled
    have killed := (agedCircuits_perm smartlist relay conns now circlist).symm.subset member
    rw [← all (bound + 1) (Nat.lt_succ_self bound)] at killed
    obtain ⟨kill, isKill, rfl⟩ := List.mem_map.mp killed
    exact (killOf_accounted_iff relay kill circ live
      ((killCircuits_kills cfg (bound + 1) now _ _ relay conns 0 aged).2 kill isKill)).mp
        (handled.accounted kill isKill)
  · intro accountable currentAllocation
    unfold circuitsHandleOom
    split
    · next enough =>
      rw [Nat.sub_eq_zero_of_le enough]
      exact ⟨by simp, Or.inl (by simp [reallyRecovered]), by simp, by simp, by simp⟩
    · exact killCircuits_sound cfg _ smartlist now circlist _ relay conns listed inOrder accountable

/-! ## Two circuits -/

/-- A `smartlist_sort`. -/
def sampleSort : SmartlistSort where
  sort := fun key xs => xs.insertionSort (fun a b => key b ≤ key a)
  perm := fun key xs => xs.perm_insertionSort (fun a b => key b ≤ key a)
  sorted := fun key xs => by
    have total : Std.Total (fun a b => key b ≤ key a) := ⟨fun a b => UInt32.le_total _ _⟩
    have trans : IsTrans _ (fun a b => key b ≤ key a) :=
      ⟨fun a b c first second => UInt32.le_trans second first⟩
    exact xs.pairwise_insertionSort (fun a b => key b ≤ key a)

def idleConns : Conns := fun _ => ⟨.other, none, false, none, none, none⟩

/-- A cell of stamp 0 on a circuit with the given policy, then one of stamp 5 on
a circuit without delays. -/
def twoCircuits (policy : Option DelayPolicy) : List Op :=
  [.createOr 1 7 policy, .createOr 1 8 none, .connect 0 2 9, .connect 1 2 10,
    .append 0 2 (sampleCell 9) .outbound 0 (sampleEnv 0 5000),
    .append 1 2 (sampleCell 10) .outbound 0 { sampleEnv 0 5000 with stamp := 5 }]

def sampleMaxMemInQueues : Nat := 256 * 1024 * 1024

theorem circuitsHandleOom_sound_iff_direct :
    OomSound (sampleRelay sampleConfig (twoCircuits none)) idleConns 10 [0, 1]
      (sampleMaxMemInQueues - oomMemTarget sampleMaxMemInQueues)
      (circuitsHandleOom sampleConfig sampleMaxMemInQueues sampleSort sampleMaxMemInQueues 10
        [0, 1] [] (sampleRelay sampleConfig (twoCircuits none)) idleConns) := by
  have listed : Listed (sampleRelay sampleConfig (twoCircuits none)) [0, 1] := by
    refine ⟨by decide, fun c member => Option.isSome_iff_exists.mp ?_⟩
    revert c
    decide +kernel
  have inOrder : ∀ c ∈ [0, 1],
      ∀ circ ∈ (sampleRelay sampleConfig (twoCircuits none)).circuits c,
        OldestAtHead 10 idleConns circ := by
    decide +kernel
  have accountable : ∀ c ∈ [0, 1],
      ∀ circ ∈ (sampleRelay sampleConfig (twoCircuits none)).circuits c, Accountable circ := by
    decide +kernel
  exact (circuitsHandleOom_sound_iff sampleConfig sampleMaxMemInQueues sampleSort 10 [0, 1] [] _
    idleConns listed inOrder).mpr accountable sampleMaxMemInQueues

/-- With a delayed cell on the first circuit, the handler kills the second one
first, and counts no cell when it frees the delayed one. -/
theorem circuitsHandleOom_misses_delayed :
    RelayRun sampleConfig (sampleTrace sampleConfig (twoCircuits (some samplePolicy)))
        (sampleRelay sampleConfig (twoCircuits (some samplePolicy))) ∧
      ¬ (∀ kill ∈ (circuitsHandleOom sampleConfig sampleMaxMemInQueues sampleSort
          sampleMaxMemInQueues 10 [0, 1] []
          (sampleRelay sampleConfig (twoCircuits (some samplePolicy))) idleConns).kills,
        kill.n * packedCellMemCost =
          packedCellMemCost * freedCells kill.circ kill.pre kill.post) ∧
      ¬ ((circuitsHandleOom sampleConfig sampleMaxMemInQueues sampleSort
          sampleMaxMemInQueues 10 [0, 1] []
          (sampleRelay sampleConfig (twoCircuits (some samplePolicy))) idleConns).kills.map
          circ).Pairwise (fun a b =>
        circuitAge (sampleRelay sampleConfig (twoCircuits (some samplePolicy))) idleConns 10 b ≤
          circuitAge (sampleRelay sampleConfig (twoCircuits (some samplePolicy))) idleConns 10 a) :=
  ⟨relayRun_of_admissible sampleConfig _ (by decide +kernel), by decide +kernel,
    by decide +kernel⟩

end RendezMix.Guarantees
