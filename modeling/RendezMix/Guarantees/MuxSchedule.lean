import RendezMix.Guarantees.EwmaQueue
import RendezMix.Source.MuxSystem

/-!
# The entries of a mux

Which entry a circuit is found by, what the counters say about all entries, and
what the policy keeps for each of them. The statements do not depend on the order
of the entries, so that the entry an operation is about can be taken to be the
first one.
-/
namespace RendezMix.Guarantees.MuxEntries

open Library Source CircuitmuxEwma Circuitmux MuxSystem EwmaQueue

/-! ## Counters -/

def activity (nCells : UInt32) : UInt32 := if nCells > 0 then 1 else 0

def entryCount (entries : List MapEntry) : UInt32 := UInt32.ofNat entries.length

def isActive (e : MapEntry) : Bool := e.muxinfo.cellCount > 0

def activeCount (entries : List MapEntry) : UInt32 := UInt32.ofNat (entries.countP isActive)

/-- The cells of all entries. -/
def cellTotal (entries : List MapEntry) : Nat :=
  (entries.map fun e => e.muxinfo.cellCount.toNat).sum

variable (e : MapEntry) (rest : List MapEntry)

@[simp] theorem entryCount_cons :
    entryCount (e :: rest) = entryCount rest + 1 := by
  simp [entryCount, UInt32.ofNat_add]

@[simp] theorem activeCount_cons :
    activeCount (e :: rest) = activeCount rest + activity e.muxinfo.cellCount := by
  by_cases busy : e.muxinfo.cellCount > 0
  · simp [activeCount, isActive, activity, busy, UInt32.ofNat_add]
  · simp [activeCount, isActive, activity, busy]

@[simp] theorem cellTotal_cons :
    UInt32.ofNat (cellTotal (e :: rest)) = UInt32.ofNat (cellTotal rest) + e.muxinfo.cellCount := by
  rw [UInt32.add_comm]
  simp [cellTotal, UInt32.ofNat_add]

/-- The three counters, in the arithmetic of `unsigned int`. -/
structure Tallied (mux : CircuitMux) (entries : List MapEntry) : Prop where
  circuits : mux.nCircuits = entryCount entries
  active : mux.nActiveCircuits = activeCount entries
  cells : mux.nCells = UInt32.ofNat (cellTotal entries)

theorem Tallied.of_perm {mux : CircuitMux} {entries entries' : List MapEntry}
    (tallied : Tallied mux entries) (perm : entries.Perm entries') : Tallied mux entries' := by
  constructor
  · rw [tallied.circuits, entryCount, perm.length_eq]
    rfl
  · rw [tallied.active, activeCount, perm.countP_eq]
    rfl
  · rw [tallied.cells, cellTotal, (perm.map _).sum_nat]
    rfl

/-- One entry gets another number of cells. -/
theorem Tallied.withCount {mux mux' : CircuitMux} {e : MapEntry} {rest : List MapEntry}
    {n : UInt32} (tallied : Tallied mux (e :: rest)) (circuits : mux'.nCircuits = mux.nCircuits)
    (active : mux'.nActiveCircuits
      = mux.nActiveCircuits - activity e.muxinfo.cellCount + activity n)
    (cells : mux'.nCells = mux.nCells - e.muxinfo.cellCount + n) :
    Tallied mux' (e.withCount n :: rest) := by
  constructor
  · rw [circuits, tallied.circuits, entryCount_cons, entryCount_cons]
  · rw [active, tallied.active, activeCount_cons, activeCount_cons, UInt32.add_sub_cancel]
    rfl
  · rw [cells, tallied.cells, cellTotal_cons, cellTotal_cons, UInt32.add_sub_cancel]
    rfl

/-- The first entry is taken away. -/
theorem Tallied.remove {mux mux' : CircuitMux} {e : MapEntry} {rest : List MapEntry}
    (tallied : Tallied mux (e :: rest)) (circuits : mux'.nCircuits = mux.nCircuits - 1)
    (active : mux'.nActiveCircuits = mux.nActiveCircuits - activity e.muxinfo.cellCount)
    (cells : mux'.nCells = mux.nCells - e.muxinfo.cellCount) : Tallied mux' rest := by
  constructor
  · rw [circuits, tallied.circuits, entryCount_cons, UInt32.add_sub_cancel]
  · rw [active, tallied.active, activeCount_cons, UInt32.add_sub_cancel]
  · rw [cells, tallied.cells, cellTotal_cons, UInt32.add_sub_cancel]

/-! ## Keys and owners -/

/-- The entries are those of circuits with an id on the channel. -/
structure Mapped (chan : UInt64) (env : Environment) (entries : List MapEntry) : Prop where
  distinct : KeyedLists.Distinct MapEntry.key entries
  chanId : ∀ e ∈ entries, e.chanId = chan
  circId : ∀ e ∈ entries, e.circId ≠ 0
  owned : ∀ e ∈ entries, ∃ circ, Owns env circ e.muxinfo.direction chan e.circId

theorem Mapped.of_perm {chan : UInt64} {env : Environment} {entries entries' : List MapEntry}
    (mapped : Mapped chan env entries) (perm : entries.Perm entries') :
    Mapped chan env entries' := by
  constructor
  · exact mapped.distinct.perm perm
  · exact fun e inside => mapped.chanId e (perm.mem_iff.mpr inside)
  · exact fun e inside => mapped.circId e (perm.mem_iff.mpr inside)
  · exact fun e inside => mapped.owned e (perm.mem_iff.mpr inside)

theorem Mapped.tail {chan : UInt64} {env : Environment} {e : MapEntry} {rest : List MapEntry}
    (mapped : Mapped chan env (e :: rest)) : Mapped chan env rest := by
  constructor
  · exact (List.nodup_cons.mp mapped.distinct).2
  · exact fun x inside => mapped.chanId x (List.mem_cons_of_mem e inside)
  · exact fun x inside => mapped.circId x (List.mem_cons_of_mem e inside)
  · exact fun x inside => mapped.owned x (List.mem_cons_of_mem e inside)

theorem Mapped.write {chan : UInt64} {env : Environment} {e : MapEntry} {rest : List MapEntry}
    (mapped : Mapped chan env (e :: rest)) (e' : MapEntry) (key : e'.key = e.key)
    (direction : e'.muxinfo.direction = e.muxinfo.direction) : Mapped chan env (e' :: rest) := by
  obtain ⟨sameChan, sameCirc⟩ := Prod.mk.inj key
  constructor
  · have distinct := mapped.distinct
    simp only [KeyedLists.Distinct, List.map_cons, key] at distinct ⊢
    exact distinct
  · obtain ⟨first, others⟩ := List.forall_mem_cons.mp mapped.chanId
    exact List.forall_mem_cons.mpr ⟨sameChan.trans first, others⟩
  · obtain ⟨first, others⟩ := List.forall_mem_cons.mp mapped.circId
    exact List.forall_mem_cons.mpr ⟨sameCirc ▸ first, others⟩
  · obtain ⟨first, others⟩ := List.forall_mem_cons.mp mapped.owned
    refine List.forall_mem_cons.mpr ⟨?_, others⟩
    rw [sameCirc, direction]
    exact first

/-- An entry with a new key. -/
theorem Mapped.insert {chan : UInt64} {env : Environment} {rest : List MapEntry}
    (mapped : Mapped chan env rest) (e : MapEntry) {circ : CircRef} (chanId : e.chanId = chan)
    (circId : e.circId ≠ 0) (owns : Owns env circ e.muxinfo.direction chan e.circId)
    (fresh : KeyedLists.find MapEntry.key e.key rest = none) : Mapped chan env (e :: rest) := by
  constructor
  · simp only [KeyedLists.Distinct, List.map_cons, List.nodup_cons]
    refine ⟨?_, mapped.distinct⟩
    intro member
    obtain ⟨x, inside, same⟩ := List.mem_map.mp member
    exact KeyedLists.find_eq_none.mp fresh x inside same
  · exact List.forall_mem_cons.mpr ⟨chanId, mapped.chanId⟩
  · exact List.forall_mem_cons.mpr ⟨circId, mapped.circId⟩
  · exact List.forall_mem_cons.mpr ⟨⟨circ, owns⟩, mapped.owned⟩

variable {chan : UInt64} {env : Environment}

section

variable {mux : CircuitMux} {circId : UInt32}

theorem owner_unique (sound : SoundEnvironment env chan) {circ circ' : CircRef}
    {direction direction' : CellDirection} (owns : Owns env circ direction chan circId)
    (owns' : Owns env circ' direction' chan circId) (nonzero : circId ≠ 0) :
    circ = circ' ∧ direction = direction' := by
  have same := sound.registered circ direction circId owns nonzero
  rw [sound.registered circ' direction' circId owns' nonzero] at same
  cases same
  refine ⟨rfl, ?_⟩
  cases direction with
  | outbound =>
    cases direction' with
    | outbound => rfl
    | inbound => exact absurd owns.1 (sound.onward circ owns'.1 owns'.2.1)
  | inbound =>
    cases direction' with
    | outbound => exact absurd owns'.1 (sound.onward circ owns.1 owns.2.1)
    | inbound => rfl

theorem htFind_key {chanId : UInt64} {e : MapEntry} (found : htFind mux chanId circId = some e) :
    e ∈ mux.chanidCircidMap ∧ e.chanId = chanId ∧ e.circId = circId := by
  have same : e.key = (chanId, circId) := KeyedLists.find_key found
  exact ⟨KeyedLists.find_mem found, Prod.mk.inj same⟩

section

variable {c : MuxCircuit} (mapped : Mapped chan env mux.chanidCircidMap)

include mapped

theorem bind_htFind_eq_none {side : Option UInt64} (elsewhere : side ≠ some chan) :
    (side.bind fun chanId => htFind mux chanId circId) = none := by
  rw [Option.bind_eq_none_iff]
  intro other there
  by_contra found
  obtain ⟨e, here⟩ := Option.ne_none_iff_exists'.mp found
  obtain ⟨inside, sameChan, -⟩ := htFind_key here
  exact elsewhere (there.trans (congrArg some (sameChan.symm.trans (mapped.chanId e inside))))

theorem findOutbound_eq_none (elsewhere : c.nChan ≠ some chan) : findOutbound mux c = none :=
  bind_htFind_eq_none mapped elsewhere

theorem findInbound_eq_none (elsewhere : c.magic = .orCircuit → c.pChan ≠ some chan) :
    findInbound mux c = none := by
  unfold findInbound
  split
  · next isOr => exact bind_htFind_eq_none mapped (elsewhere isOr)
  · rfl

end

section

variable {circ : CircRef}

theorem circuitmuxFindMapEntry_owner (mux : CircuitMux) (sound : SoundEnvironment env chan)
    (mapped : Mapped chan env mux.chanidCircidMap) {e : MapEntry}
    (inside : e ∈ mux.chanidCircidMap) (owns : Owns env circ e.muxinfo.direction chan e.circId) :
    circuitmuxFindMapEntry env mux circ = some (some e) := by
  have found := mapped.distinct.find_of_mem inside
  simp only [MapEntry.key, mapped.chanId e inside] at found
  cases way : e.muxinfo.direction with
  | outbound =>
    rw [way] at owns
    have here : findOutbound mux (env.circuit circ) = some e := by
      simp only [findOutbound, owns.1, Option.bind_some, htFind, owns.2]
      exact found
    simp [circuitmuxFindMapEntry, here, torAssert, way]
  | inbound =>
    rw [way] at owns
    have notThere := findOutbound_eq_none mapped (sound.onward circ owns.1 owns.2.1)
    have here : findInbound mux (env.circuit circ) = some e := by
      simp only [findInbound, if_pos owns.1, owns.2.1, Option.bind_some, htFind, owns.2.2]
      exact found
    simp [circuitmuxFindMapEntry, notThere, here, torAssert, way]

theorem circuitmuxFindMapEntry_some (mapped : Mapped chan env mux.chanidCircidMap) {e : MapEntry}
    (found : circuitmuxFindMapEntry env mux circ = some (some e)) :
    e ∈ mux.chanidCircidMap ∧ Owns env circ e.muxinfo.direction chan e.circId := by
  unfold circuitmuxFindMapEntry at found
  split at found
  · next hashent there =>
    by_cases way : hashent.muxinfo.direction = .outbound
    · simp [torAssert, way] at found
      subst found
      obtain ⟨chanId, leaves, here⟩ := Option.bind_eq_some_iff.mp there
      obtain ⟨inside, sameChan, sameCirc⟩ := htFind_key here
      refine ⟨inside, ?_⟩
      rw [way]
      exact ⟨leaves.trans (congrArg some (sameChan.symm.trans (mapped.chanId _ inside))),
        sameCirc.symm⟩
    · simp [torAssert, way] at found
  · split at found
    · next hashent there =>
      by_cases way : hashent.muxinfo.direction = .inbound
      · simp [torAssert, way] at found
        subst found
        unfold findInbound at there
        split at there
        · next isOr =>
          obtain ⟨chanId, comes, here⟩ := Option.bind_eq_some_iff.mp there
          obtain ⟨inside, sameChan, sameCirc⟩ := htFind_key here
          refine ⟨inside, ?_⟩
          rw [way]
          exact ⟨isOr, comes.trans (congrArg some (sameChan.symm.trans (mapped.chanId _ inside))),
            sameCirc.symm⟩
        · cases there
      · simp [torAssert, way] at found
    · cases found

end

end

end RendezMix.Guarantees.MuxEntries

/-!
# The policy's data of the entries

Every entry has data of its own, and the queue of the policy holds the data of the
active ones. Each lemma is about the entry at the head of the list.
-/
namespace RendezMix.Guarantees.MuxSchedule

open Library Source CircuitmuxEwma Circuitmux MuxSystem EwmaQueue PqueueOrder MuxEntries

/-- The policy's data of the entries. -/
def refsOf (entries : List MapEntry) : List EwmaRef :=
  entries.filterMap fun e => e.muxinfo.policyData

/-- The policy's data of the active entries. -/
def activeRefs (entries : List MapEntry) : List EwmaRef :=
  entries.filterMap fun e => if isActive e then e.muxinfo.policyData else none

section

variable {r : EwmaRef}

theorem activeRefs_active {e : MapEntry} {rest : List MapEntry} (busy : e.muxinfo.cellCount > 0)
    (data : e.muxinfo.policyData = some r) : activeRefs (e :: rest) = r :: activeRefs rest := by
  simp [activeRefs, isActive, busy, data]

theorem activeRefs_idle {e : MapEntry} {rest : List MapEntry} (idle : e.muxinfo.cellCount = 0) :
    activeRefs (e :: rest) = activeRefs rest := by
  simp [activeRefs, isActive, idle]

theorem refsOf_cons {e : MapEntry} {rest : List MapEntry} (data : e.muxinfo.policyData = some r) :
    refsOf (e :: rest) = r :: refsOf rest := by
  simp [refsOf, data]

theorem mem_refsOf {entries : List MapEntry} :
    r ∈ refsOf entries ↔ ∃ e ∈ entries, e.muxinfo.policyData = some r :=
  List.mem_filterMap

theorem mem_activeRefs {entries : List MapEntry} :
    r ∈ activeRefs entries
      ↔ ∃ e ∈ entries, e.muxinfo.cellCount > 0 ∧ e.muxinfo.policyData = some r := by
  unfold activeRefs
  rw [List.mem_filterMap]
  apply exists_congr
  intro e
  by_cases busy : e.muxinfo.cellCount > 0
  · simp [isActive, busy]
  · simp [isActive, busy]

theorem mem_refsOf_of_active {entries : List MapEntry} (inside : r ∈ activeRefs entries) :
    r ∈ refsOf entries := by
  obtain ⟨e, member, -, data⟩ := mem_activeRefs.mp inside
  exact mem_refsOf.mpr ⟨e, member, data⟩

theorem uint32_pos_iff (n : UInt32) : n > 0 ↔ n ≠ 0 := by
  constructor
  · intro positive zero
    subst zero
    exact absurd positive (by decide)
  · exact UInt32.pos_iff_ne_zero.mpr

theorem uint32_eq_zero_of_not_pos {n : UInt32} (idle : ¬ n > 0) : n = 0 := by
  rw [uint32_pos_iff, not_not] at idle
  exact idle

end

/-- The policy with the data `mem` serves the circuits of the entries. -/
structure Scheduled (env : Environment) (pol : EwmaPolicyData) (mem : EwmaMemory)
    (entries : List MapEntry) : Prop where
  queued : Queued pol mem (activeRefs entries)
  given : ∀ e ∈ entries, ∃ r, e.muxinfo.policyData = some r ∧ r < mem.next
    ∧ env.circidMap e.chanId e.circId = some (mem.circ r)
  distinct : (refsOf entries).Nodup
  idle : ∀ e ∈ entries, ∀ r, e.muxinfo.cellCount = 0 → e.muxinfo.policyData = some r →
    mem.heapIndex r = -1

variable {env : Environment} {pol : EwmaPolicyData} {mem : EwmaMemory} {e : MapEntry}
  {rest entries : List MapEntry}

theorem Scheduled.of_perm {entries' : List MapEntry} (scheduled : Scheduled env pol mem entries)
    (perm : entries.Perm entries') : Scheduled env pol mem entries' := by
  constructor
  · exact scheduled.queued.of_perm (perm.filterMap _)
  · exact fun x inside => scheduled.given x (perm.mem_iff.mpr inside)
  · exact (perm.filterMap _).nodup_iff.mp scheduled.distinct
  · exact fun x inside => scheduled.idle x (perm.mem_iff.mpr inside)

theorem idle_not_mem {r : EwmaRef} (distinct : (refsOf entries).Nodup) (inside : e ∈ entries)
    (idle : e.muxinfo.cellCount = 0) (data : e.muxinfo.policyData = some r) :
    r ∉ activeRefs entries := by
  induction entries with
  | nil => simp at inside
  | cons x rest ih =>
    rcases List.mem_cons.mp inside with rfl | inRest
    · rw [refsOf_cons data] at distinct
      rw [activeRefs_idle idle]
      exact fun member => (List.nodup_cons.mp distinct).1 (mem_refsOf_of_active member)
    · have member : r ∈ refsOf rest := mem_refsOf.mpr ⟨e, inRest, data⟩
      cases own : x.muxinfo.policyData with
      | none =>
        have same : activeRefs (x :: rest) = activeRefs rest := by simp [activeRefs, own]
        rw [same]
        apply ih _ inRest
        simpa [refsOf, own] using distinct
      | some s =>
        rw [refsOf_cons own] at distinct
        obtain ⟨fresh, tail⟩ := List.nodup_cons.mp distinct
        by_cases busy : x.muxinfo.cellCount > 0
        · rw [activeRefs_active busy own, List.mem_cons, not_or]
          exact ⟨fun same => fresh (same ▸ member), ih tail inRest⟩
        · rw [activeRefs_idle (uint32_eq_zero_of_not_pos busy)]
          exact ih tail inRest

theorem Scheduled.framed {pol' : EwmaPolicyData} {mem' : EwmaMemory}
    (scheduled : Scheduled env pol mem entries) (queued : Queued pol' mem' (activeRefs entries))
    (framed : Framed (activeRefs entries) mem mem') : Scheduled env pol' mem' entries := by
  constructor
  · exact queued
  · rw [framed.circ, framed.next]
    exact scheduled.given
  · exact scheduled.distinct
  · intro x inside r idle data
    rw [framed.heapIndex r (idle_not_mem scheduled.distinct inside idle data)]
    exact scheduled.idle x inside r idle data

section

variable (scheduled : Scheduled env pol mem (e :: rest))

include scheduled

theorem Scheduled.recount {n : UInt32} (same : e.muxinfo.cellCount = 0 ↔ n = 0) :
    Scheduled env pol mem (e.withCount n :: rest) := by
  have refs : activeRefs (e.withCount n :: rest) = activeRefs (e :: rest) := by
    by_cases idle : e.muxinfo.cellCount = 0
    · rw [activeRefs_idle idle, activeRefs_idle (same.mp idle)]
    · obtain ⟨r, data, -⟩ := scheduled.given e (List.mem_cons_self ..)
      rw [activeRefs_active ((uint32_pos_iff _).mpr idle) data,
        activeRefs_active (e := e.withCount n)
          ((uint32_pos_iff n).mpr fun zero => idle (same.mpr zero)) data]
  constructor
  · rw [refs]
    exact scheduled.queued
  · intro x inside
    rcases List.mem_cons.mp inside with rfl | inRest
    · exact scheduled.given e (List.mem_cons_self ..)
    · exact scheduled.given x (List.mem_cons_of_mem e inRest)
  · exact scheduled.distinct
  · intro x inside r idle data
    rcases List.mem_cons.mp inside with rfl | inRest
    · exact scheduled.idle e (List.mem_cons_self ..) r (same.mpr idle) data
    · exact scheduled.idle x (List.mem_cons_of_mem e inRest) r idle data

theorem Scheduled.drop (idle : e.muxinfo.cellCount = 0) : Scheduled env pol mem rest := by
  have queued := scheduled.queued
  rw [activeRefs_idle idle] at queued
  have distinct := scheduled.distinct
  obtain ⟨r, data, -⟩ := scheduled.given e (List.mem_cons_self ..)
  rw [refsOf_cons data] at distinct
  constructor
  · exact queued
  · exact fun x inside => scheduled.given x (List.mem_cons_of_mem e inside)
  · exact (List.nodup_cons.mp distinct).2
  · exact fun x inside => scheduled.idle x (List.mem_cons_of_mem e inside)

end

/-- An entry without cells gets new data. -/
theorem Scheduled.alloc (g : EwmaGlobals) {circ : CircRef} (scheduled : Scheduled env pol mem rest)
    (idle : e.muxinfo.cellCount = 0) (data : e.muxinfo.policyData = some mem.next)
    (registered : env.circidMap e.chanId e.circId = some circ) :
    Scheduled env pol (ewmaAllocCircData g mem circ) (e :: rest) := by
  have old : ∀ x ∈ rest, ∀ r, x.muxinfo.policyData = some r → r ≠ mem.next := by
    intro x inside r own
    obtain ⟨s, same, below, -⟩ := scheduled.given x inside
    rw [own] at same
    cases same
    exact Nat.ne_of_lt below
  have others : ∀ r ∈ activeRefs rest, r ≠ mem.next := by
    intro r inside
    obtain ⟨x, member, -, own⟩ := mem_activeRefs.mp inside
    exact old x member r own
  constructor
  · rw [activeRefs_idle idle]
    constructor
    · constructor
      · exact scheduled.queued.indexed.nodup
      · intro i inside
        have member := get_mem (pqueueOf pol mem) inside
        have kept := others _ (scheduled.queued.perm.mem_iff.mp member)
        exact (Function.update_of_ne kept ..).trans (scheduled.queued.indexed.idx_get i inside)
    · exact scheduled.queued.perm
    · intro r inside
      exact (Function.update_of_ne (others r inside) ..).trans (scheduled.queued.ticks r inside)
  · intro x inside
    rcases List.mem_cons.mp inside with rfl | inRest
    · have owner : (ewmaAllocCircData g mem circ).circ mem.next = circ :=
        Function.update_self ..
      exact ⟨mem.next, data, Nat.lt_succ_self _, by rw [registered, owner]⟩
    · obtain ⟨r, own, below, known⟩ := scheduled.given x inRest
      refine ⟨r, own, Nat.lt_succ_of_lt below, ?_⟩
      rw [known]
      exact congrArg some (Function.update_of_ne (old x inRest r own) ..).symm
  · rw [refsOf_cons data, List.nodup_cons]
    refine ⟨?_, scheduled.distinct⟩
    intro member
    obtain ⟨x, inside, own⟩ := mem_refsOf.mp member
    exact old x inside _ own rfl
  · intro x inside r zero own
    rcases List.mem_cons.mp inside with rfl | inRest
    · rw [data] at own
      cases own
      exact Function.update_self ..
    · exact (Function.update_of_ne (old x inRest r own) ..).trans
        (scheduled.idle x inRest r zero own)

theorem Scheduled.served_alloc (scheduled : Scheduled env pol mem entries) (g : EwmaGlobals)
    (circ : CircRef) (served : Served pol mem) : Served pol (ewmaAllocCircData g mem circ) := by
  apply served.congr
  intro r inside
  have used := scheduled.queued.perm.mem_iff.mp inside
  obtain ⟨x, member, -, data⟩ := mem_activeRefs.mp used
  obtain ⟨r', same, below, -⟩ := scheduled.given x member
  rw [data] at same
  cases same
  exact Function.update_of_ne (Nat.ne_of_lt below) ..

theorem Scheduled.nil (empty : pol.activeCircuitPqueue = []) : Scheduled env pol mem [] := by
  constructor
  · constructor
    · constructor
      · simp [pqueueOf, empty]
      · intro i inside
        simp [pqueueOf, empty] at inside
    · rw [empty]
      exact List.Perm.refl _
    · simp [activeRefs]
  · simp
  · exact List.nodup_nil
  · simp

theorem Scheduled.served_nil (scheduled : Scheduled env pol mem []) : Served pol mem := by
  have empty : pol.activeCircuitPqueue = [] := scheduled.queued.perm.eq_nil
  intro i _ inside
  simp [pqueueOf, empty] at inside

/-- An entry loses its last cell. -/
theorem Scheduled.deactivate (scheduled : Scheduled env pol mem (e :: rest))
    (busy : e.muxinfo.cellCount > 0) :
    ∃ r pol' mem', e.muxinfo.policyData = some r ∧ removeCellEwma pol mem r = some (pol', mem')
      ∧ Scheduled env pol' mem' (e.withCount 0 :: rest)
      ∧ (Served pol mem → ¬ Misplaces mem.cellCount (pqueueOf pol mem) r →
          Served pol' mem') := by
  obtain ⟨r, data, below, known⟩ := scheduled.given e (List.mem_cons_self ..)
  have refs : activeRefs (e :: rest) = r :: activeRefs rest := activeRefs_active busy data
  obtain ⟨pol', mem', removed, queued, framed, out, heap⟩ :=
    removeCellEwma_queued scheduled.queued (List.Perm.of_eq refs)
  refine ⟨r, pol', mem', data, removed, ?_, heap⟩
  constructor
  · rw [activeRefs_idle rfl]
    exact queued
  · intro x inside
    rw [framed.circ, framed.next]
    rcases List.mem_cons.mp inside with rfl | inRest
    · exact ⟨r, data, below, known⟩
    · exact scheduled.given x (List.mem_cons_of_mem e inRest)
  · exact scheduled.distinct
  · intro x inside s idle own
    rcases List.mem_cons.mp inside with rfl | inRest
    · have same : s = r := Option.some.inj (own.symm.trans data)
      rw [same]
      exact out
    · rw [framed.heapIndex s
        (idle_not_mem scheduled.distinct (List.mem_cons_of_mem e inRest) idle own)]
      exact scheduled.idle x (List.mem_cons_of_mem e inRest) s idle own

/-- An entry without cells gets some. -/
theorem Scheduled.activate (pow : Rat → Rat → Rat) (g : EwmaGlobals) {n : UInt32}
    (scheduled : Scheduled env pol mem (e :: rest)) (idle : e.muxinfo.cellCount = 0) (some_ : n > 0) :
    ∃ r pol' mem', e.muxinfo.policyData = some r
      ∧ addCellEwma pow g pol mem r = some (pol', mem')
      ∧ Scheduled env pol' mem' (e.withCount n :: rest)
      ∧ (Served pol mem → Served pol' mem') := by
  obtain ⟨r, data, below, known⟩ := scheduled.given e (List.mem_cons_self ..)
  have fresh := idle_not_mem scheduled.distinct (List.mem_cons_self ..) idle data
  have out := scheduled.idle e (List.mem_cons_self ..) r idle data
  obtain ⟨pol', mem', added, queued, framed, heap⟩ :=
    addCellEwma_queued pow g scheduled.queued fresh out
  rw [activeRefs_idle idle] at queued framed
  refine ⟨r, pol', mem', data, added, ?_, heap⟩
  have distinct := scheduled.distinct
  rw [refsOf_cons data] at distinct
  constructor
  · rw [activeRefs_active (e := e.withCount n) some_ data]
    exact queued
  · intro x inside
    rw [framed.circ, framed.next]
    rcases List.mem_cons.mp inside with rfl | inRest
    · exact ⟨r, data, below, known⟩
    · exact scheduled.given x (List.mem_cons_of_mem e inRest)
  · exact scheduled.distinct
  · intro x inside s zero own
    rcases List.mem_cons.mp inside with rfl | inRest
    · exact absurd zero ((uint32_pos_iff n).mp some_)
    · have other : s ∉ r :: activeRefs rest := by
        rw [List.mem_cons, not_or]
        constructor
        · rintro rfl
          exact (List.nodup_cons.mp distinct).1 (mem_refsOf.mpr ⟨x, inRest, own⟩)
        · exact idle_not_mem (List.nodup_cons.mp distinct).2 inRest zero own
      rw [framed.heapIndex s other]
      exact scheduled.idle x (List.mem_cons_of_mem e inRest) s zero own

end RendezMix.Guarantees.MuxSchedule
