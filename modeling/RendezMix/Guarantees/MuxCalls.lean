import RendezMix.Guarantees.MuxSchedule

/-!
# Calls about one circuit

`Kept` is what the mux and the policy agree about between two calls. Each call
about one circuit returns and keeps it; the queue stays a heap unless a circuit
is taken out of its middle (`Misplaces`).
-/
namespace RendezMix.Guarantees.MuxCalls

open Library Source CircuitmuxEwma Circuitmux MuxSystem EwmaQueue PqueueOrder MuxEntries MuxSchedule

/-- What the policy knows of the entries; without a policy there are no data. -/
def PolicyKept (env : Environment) (policy : Option EwmaPolicyData) (mem : EwmaMemory)
    (entries : List MapEntry) : Prop :=
  match policy with
  | some pol => Scheduled env pol mem entries
  | none => ∀ e ∈ entries, e.muxinfo.policyData = none

structure Kept (chan : UInt64) (env : Environment) (s : MuxState) : Prop where
  mapped : Mapped chan env s.mux.chanidCircidMap
  tallied : Tallied s.mux s.mux.chanidCircidMap
  policy : PolicyKept env s.mux.policy s.mem s.mux.chanidCircidMap

/-- The queue of the mux is a heap. -/
def ServedMux (s : MuxState) : Prop := ∀ pol, s.mux.policy = some pol → Served pol s.mem

/-- Taking the data of an entry out of the queue would not break the heap. -/
def Fits (s : MuxState) (e : MapEntry) : Prop :=
  ∀ pol r, s.mux.policy = some pol → e.muxinfo.policyData = some r →
    ¬ Misplaces s.mem.cellCount (pqueueOf pol s.mem) r

variable (pow : Rat → Rat → Rat) {chan : UInt64} {env : Environment} {s : MuxState}
  {circ : CircRef} {e : MapEntry}

section

variable {hashent : MapEntry} {mux : CircuitMux} {n : UInt32} {r : EwmaRef}
  {pol' pol : EwmaPolicyData} {mem' : EwmaMemory}

theorem Kept.scheduled (kept : Kept chan env s) (policy : s.mux.policy = some pol) :
    Scheduled env pol s.mem s.mux.chanidCircidMap := by
  have known := kept.policy
  rw [policy] at known
  exact known

/-! ## The entry a call is about -/

/-- The entries but the one with the key of `e`. -/
abbrev others (mux : CircuitMux) (e : MapEntry) : List MapEntry :=
  KeyedLists.remove MapEntry.key e.key mux.chanidCircidMap

theorem entries_perm (mapped : Mapped chan env mux.chanidCircidMap)
    (inside : e ∈ mux.chanidCircidMap) : mux.chanidCircidMap.Perm (e :: others mux e) :=
  KeyedLists.perm_remove (mapped.distinct.find_of_mem inside)

theorem writeEntry_perm (e' : MapEntry) (mapped : Mapped chan env mux.chanidCircidMap)
    (inside : e ∈ mux.chanidCircidMap) (key : e'.key = e.key) :
    (writeEntry mux e').chanidCircidMap.Perm (e' :: others mux e) := by
  have found := mapped.distinct.find_of_mem inside
  rw [others, ← key]
  rw [← key] at found
  exact KeyedLists.replace_perm found

section

variable (mapped : Mapped chan env mux.chanidCircidMap) (inside : e ∈ mux.chanidCircidMap)

include mapped inside

theorem Mapped.writeCount : Mapped chan env (writeEntry mux (e.withCount n)).chanidCircidMap :=
  ((mapped.of_perm (entries_perm mapped inside)).write (e.withCount n) rfl rfl).of_perm
    (writeEntry_perm (e.withCount n) mapped inside rfl).symm

theorem mem_writeCount : e.withCount n ∈ (writeEntry mux (e.withCount n)).chanidCircidMap :=
  (writeEntry_perm (e.withCount n) mapped inside rfl).mem_iff.mpr (List.mem_cons_self ..)

end

/-- The state after an entry got another number of cells, with all that goes with it. -/
theorem Kept.recount {s' : MuxState} (kept : Kept chan env s) (pol' : EwmaPolicyData)
    (inside : e ∈ s.mux.chanidCircidMap) (circuits : s'.mux.nCircuits = s.mux.nCircuits)
    (active : s'.mux.nActiveCircuits
      = s.mux.nActiveCircuits - activity e.muxinfo.cellCount + activity n)
    (cells : s'.mux.nCells = s.mux.nCells - e.muxinfo.cellCount + n)
    (entries : s'.mux.chanidCircidMap = (writeEntry s.mux (e.withCount n)).chanidCircidMap)
    (policy : s'.mux.policy = some pol')
    (scheduled : Scheduled env pol' s'.mem (e.withCount n :: others s.mux e)) :
    Kept chan env s' := by
  have written := writeEntry_perm (e.withCount n) kept.mapped inside rfl
  constructor
  · rw [entries]
    exact Mapped.writeCount kept.mapped inside
  · rw [entries]
    have first := kept.tallied.of_perm (entries_perm kept.mapped inside)
    exact (first.withCount circuits active cells).of_perm written.symm
  · rw [entries, policy]
    exact scheduled.of_perm written.symm

/-! ## Activity -/

section

variable (policy : s.mux.policy = some pol)
  (found : circuitmuxFindMapEntry env s.mux circ = some (some hashent))
  (data : hashent.muxinfo.policyData = some r)

include policy found data

theorem circuitmuxMakeCircuitInactive_eq
    (removed : removeCellEwma pol s.mem r = some (pol', mem')) :
    circuitmuxMakeCircuitInactive env s circ
      = some ⟨{ s.mux with policy := some pol' }, mem', s.globals⟩ := by
  simp [circuitmuxMakeCircuitInactive, policy, found, data, ewmaNotifyCircInactive, removed]

theorem circuitmuxMakeCircuitActive_eq
    (added : addCellEwma pow s.globals pol s.mem r = some (pol', mem')) :
    circuitmuxMakeCircuitActive pow env s circ
      = some ⟨{ s.mux with policy := some pol' }, mem', s.globals⟩ := by
  simp [circuitmuxMakeCircuitActive, policy, found, data, ewmaNotifyCircActive, added]

end

theorem changeActivity_scheduled {rest : List MapEntry} (n : UInt32)
    (policy : s.mux.policy = some pol)
    (found : circuitmuxFindMapEntry env s.mux circ = some (some hashent))
    (data : hashent.muxinfo.policyData = e.muxinfo.policyData)
    (scheduled : Scheduled env pol s.mem (e :: rest)) :
    ∃ pol' mem', changeActivity pow env s circ e.muxinfo.cellCount n
        = some ⟨{ s.mux with
            nActiveCircuits :=
              s.mux.nActiveCircuits - activity e.muxinfo.cellCount + activity n
            policy := some pol' }, mem', s.globals⟩
      ∧ Scheduled env pol' mem' (e.withCount n :: rest)
      ∧ (Served pol s.mem → (e.muxinfo.cellCount > 0 → n = 0 → Fits s e) →
          Served pol' mem') := by
  by_cases losesAll : e.muxinfo.cellCount > 0 ∧ n = 0
  · obtain ⟨busy, rfl⟩ := losesAll
    obtain ⟨r, pol', mem', own, removed, scheduled', heap⟩ := scheduled.deactivate busy
    refine ⟨pol', mem', ?_, scheduled', ?_⟩
    · rw [changeActivity, if_pos ⟨busy, rfl⟩, circuitmuxMakeCircuitInactive_eq
        (s := countInactive s) policy found (data.trans own) removed]
      simp [countInactive, activity, busy]
    · exact fun served fits => heap served (fits busy rfl pol r policy own)
  · by_cases getsSome : e.muxinfo.cellCount = 0 ∧ n > 0
    · obtain ⟨idle, some_⟩ := getsSome
      obtain ⟨r, pol', mem', own, added, scheduled', heap⟩ :=
        scheduled.activate pow s.globals idle some_
      refine ⟨pol', mem', ?_, scheduled', fun served _ => heap served⟩
      rw [changeActivity, if_neg losesAll, if_pos ⟨idle, some_⟩, circuitmuxMakeCircuitActive_eq
        pow (s := countActive s) policy found (data.trans own) added]
      simp [countActive, activity, idle, some_]
    · have same : e.muxinfo.cellCount = 0 ↔ n = 0 := by
        constructor
        · intro zero
          by_contra nonzero
          exact getsSome ⟨zero, (uint32_pos_iff n).mpr nonzero⟩
        · intro zero
          by_contra nonzero
          exact losesAll ⟨(uint32_pos_iff _).mpr nonzero, zero⟩
      have still : activity e.muxinfo.cellCount = activity n := by
        simp only [activity, uint32_pos_iff, ne_eq, same]
      refine ⟨pol, s.mem, ?_, scheduled.recount same, fun served _ => served⟩
      rw [changeActivity, if_neg losesAll, if_neg getsSome, still, UInt32.sub_add_cancel, ← policy]

/-! ## Numbers of cells -/

section

variable (sound : SoundEnvironment env chan) (kept : Kept chan env s)
  (policy : s.mux.policy = some pol)

include sound kept policy

theorem circuitmuxSetNumCells_kept (n : UInt32)
    (found : circuitmuxFindMapEntry env s.mux circ = some (some e)) :
    ∃ s', circuitmuxSetNumCells pow env s circ n = some s' ∧ Kept chan env s'
      ∧ s'.globals = s.globals
      ∧ (ServedMux s → (e.muxinfo.cellCount > 0 → n = 0 → Fits s e) → ServedMux s') := by
  obtain ⟨inside, owns⟩ := circuitmuxFindMapEntry_some kept.mapped found
  let mux : CircuitMux := { s.mux with nCells := s.mux.nCells - e.muxinfo.cellCount + n }
  have found' : circuitmuxFindMapEntry env (writeEntry mux (e.withCount n)) circ
      = some (some (e.withCount n)) :=
    circuitmuxFindMapEntry_owner _ sound (Mapped.writeCount kept.mapped inside)
      (mem_writeCount kept.mapped inside) owns
  have scheduled := (kept.scheduled policy).of_perm (entries_perm kept.mapped inside)
  obtain ⟨pol', mem', changed, scheduled', heap⟩ :=
    changeActivity_scheduled pow (s := { s with mux := writeEntry mux (e.withCount n) }) (e := e)
      n policy found' rfl scheduled
  have unfolded : circuitmuxSetNumCells pow env s circ n
      = changeActivity pow env { s with mux := writeEntry mux (e.withCount n) } circ
          e.muxinfo.cellCount n := by
    simp [circuitmuxSetNumCells, found, policy, mux]
  refine ⟨_, unfolded.trans changed, ?_, rfl, ?_⟩
  · exact kept.recount pol' inside rfl rfl rfl rfl rfl scheduled'
  · intro served fits pol₁ same
    obtain rfl : pol' = pol₁ := Option.some.inj same
    exact heap (served pol policy) fits

/-! ## Attaching -/

theorem reattach_kept (cellCount : UInt32) (inside : e ∈ s.mux.chanidCircidMap)
    (owns : Owns env circ e.muxinfo.direction chan e.circId) :
    ∃ s', reattach pow env s circ e.muxinfo.direction cellCount e = some s' ∧ Kept chan env s'
      ∧ s'.globals = s.globals
      ∧ (ServedMux s → (e.muxinfo.cellCount > 0 → cellCount = 0 → Fits s e) → ServedMux s') := by
  have found := circuitmuxFindMapEntry_owner _ sound kept.mapped inside owns
  have scheduled := (kept.scheduled policy).of_perm (entries_perm kept.mapped inside)
  obtain ⟨pol', mem', changed, scheduled', heap⟩ :=
    changeActivity_scheduled pow cellCount policy found rfl scheduled
  let mux : CircuitMux := { s.mux with
    nActiveCircuits := s.mux.nActiveCircuits - activity e.muxinfo.cellCount + activity cellCount
    nCells := s.mux.nCells - e.muxinfo.cellCount + cellCount
    policy := some pol' }
  have result : reattach pow env s circ e.muxinfo.direction cellCount e
      = some ⟨writeEntry mux (e.withCount cellCount), mem', s.globals⟩ := by
    simp [reattach, torAssert, changed, mux]
  refine ⟨_, result, ?_, rfl, ?_⟩
  · exact kept.recount pol' inside rfl rfl rfl rfl rfl scheduled'
  · intro served fits pol₁ same
    obtain rfl : pol' = pol₁ := Option.some.inj same
    exact heap (served pol policy) fits

end

section

variable {circId : UInt32} {direction : CellDirection}

theorem sideOf_owns (owns : Owns env circ direction chan circId) :
    ∃ cellCount, sideOf (env.circuit circ) direction = some (some chan, cellCount, circId) := by
  cases direction with
  | outbound => exact ⟨_, by rw [sideOf, owns.1, owns.2]⟩
  | inbound =>
    refine ⟨(env.circuit circ).pChanCells, ?_⟩
    simp [sideOf, torAssert, owns.1, owns.2.1, owns.2.2]

/-- A circuit that is not attached yet. -/
theorem attachNew_kept (sound : SoundEnvironment env chan) (kept : Kept chan env s)
    (policy : s.mux.policy = some pol) (cellCount : UInt32)
    (owns : Owns env circ direction chan circId) (nonzero : circId ≠ 0)
    (absent : htFind s.mux chan circId = none) :
    ∃ s', (do
        let s ← insertCircuit s circ direction chan cellCount circId
        let s ← if cellCount > 0 then circuitmuxMakeCircuitActive pow env (countActive s) circ
          else some s
        return { s with mux := { s.mux with nCells := s.mux.nCells + cellCount } }) = some s'
      ∧ Kept chan env s' ∧ s'.globals = s.globals ∧ (ServedMux s → ServedMux s') := by
  let e := MapEntry.mk chan circId ⟨cellCount, direction, some s.mem.next⟩
  let mem := ewmaAllocCircData s.globals s.mem circ
  let mux : CircuitMux := { htInsert s.mux e with nCircuits := s.mux.nCircuits + 1 }
  have mapped : Mapped chan env mux.chanidCircidMap :=
    kept.mapped.insert e rfl nonzero owns absent
  have registered := sound.registered circ direction circId owns nonzero
  have scheduled : Scheduled env pol mem (e.withCount 0 :: s.mux.chanidCircidMap) :=
    (kept.scheduled policy).alloc s.globals rfl rfl registered
  have inserted : insertCircuit s circ direction chan cellCount circId
      = some ⟨mux, mem, s.globals⟩ := by
    simp [insertCircuit, policy, mux, mem, e, htInsert]
  have stillServed : Served pol s.mem → Served pol mem :=
    (kept.scheduled policy).served_alloc s.globals circ
  have tallied : ∀ mux' : CircuitMux, mux'.nCircuits = s.mux.nCircuits + 1 →
      mux'.nActiveCircuits = s.mux.nActiveCircuits + activity cellCount →
      mux'.nCells = s.mux.nCells + cellCount → Tallied mux' (e :: s.mux.chanidCircidMap) := by
    intro mux' circuits active cells
    constructor
    · rw [circuits, kept.tallied.circuits, entryCount_cons]
    · rw [active, kept.tallied.active, activeCount_cons]
    · rw [cells, kept.tallied.cells, cellTotal_cons]
  by_cases busy : cellCount > 0
  · obtain ⟨r, pol', mem', data, added, scheduled', heap⟩ :=
      scheduled.activate pow s.globals rfl busy
    have found := circuitmuxFindMapEntry_owner (countActive ⟨mux, mem, s.globals⟩).mux sound
      mapped (List.mem_cons_self ..) owns
    have active := circuitmuxMakeCircuitActive_eq pow
      (s := countActive ⟨mux, mem, s.globals⟩) policy found data added
    refine ⟨⟨{ mux with
        nActiveCircuits := mux.nActiveCircuits + 1
        nCells := mux.nCells + cellCount
        policy := some pol' }, mem', s.globals⟩, ?_, ⟨mapped, ?_, scheduled'⟩, rfl, ?_⟩
    · simp only [inserted, if_pos busy, active, Option.bind_eq_bind, Option.bind_some]
      rfl
    · apply tallied
      · rfl
      · simp [mux, htInsert, activity, busy]
      · rfl
    · intro served pol₁ same
      obtain rfl : pol' = pol₁ := Option.some.inj same
      exact heap (stillServed (served pol policy))
  · have idle : cellCount = 0 := uint32_eq_zero_of_not_pos busy
    subst idle
    refine ⟨⟨{ mux with nCells := mux.nCells + 0 }, mem, s.globals⟩, ?_, ⟨mapped, ?_, ?_⟩, rfl, ?_⟩
    · simp [inserted]
    · apply tallied
      · rfl
      · simp [mux, htInsert, activity]
      · rfl
    · simp only [PolicyKept, mux, htInsert, policy]
      exact scheduled
    · intro served pol₁ same
      obtain rfl : pol = pol₁ := Option.some.inj (policy.symm.trans same)
      exact stillServed (served pol policy)

theorem circuitmuxAttachCircuit_kept (sound : SoundEnvironment env chan) (kept : Kept chan env s)
    (policy : s.mux.policy = some pol) (owns : Owns env circ direction chan circId)
    (nonzero : circId ≠ 0) :
    ∃ cellCount s', sideOf (env.circuit circ) direction = some (some chan, cellCount, circId)
      ∧ circuitmuxAttachCircuit pow env s circ direction = some s' ∧ Kept chan env s'
      ∧ s'.globals = s.globals
      ∧ (ServedMux s → (∀ e, htFind s.mux chan circId = some e → e.muxinfo.cellCount > 0 →
          cellCount = 0 → Fits s e) → ServedMux s') := by
  obtain ⟨cellCount, side⟩ := sideOf_owns owns
  cases there : htFind s.mux chan circId with
  | none =>
    obtain ⟨s', result, kept', globals, served'⟩ :=
      attachNew_kept pow sound kept policy cellCount owns nonzero there
    refine ⟨cellCount, s', side, ?_, kept', globals, fun served _ => served' served⟩
    rw [← result]
    simp [circuitmuxAttachCircuit, side, torAssert, nonzero, there]
  | some e =>
    obtain ⟨inside, -, rfl⟩ := htFind_key there
    obtain ⟨owner, owned⟩ := kept.mapped.owned e inside
    obtain ⟨rfl, rfl⟩ := owner_unique sound owns owned nonzero
    obtain ⟨s', result, kept', globals, served'⟩ :=
      reattach_kept pow sound kept policy cellCount inside owns
    refine ⟨cellCount, s', side, ?_, kept', globals, fun served fits => served' served (fits e rfl)⟩
    rw [← result]
    simp [circuitmuxAttachCircuit, side, torAssert, nonzero, there]

/-! ## Detaching -/

/-- The search finds the circuit's entry, and notes the entry's direction. -/
theorem detachSearch_owns (sound : SoundEnvironment env chan)
    (mapped : Mapped chan env mux.chanidCircidMap) (owns : Owns env circ direction chan circId) :
    ∃ searched, detachSearch mux (env.circuit circ) = (htFind mux chan circId, some searched)
      ∧ ∀ e, htFind mux chan circId = some e → e.muxinfo.direction = searched := by
  have agrees : ∀ e, htFind mux chan circId = some e → e.muxinfo.direction = direction := by
    intro e there
    obtain ⟨inside, -, rfl⟩ := htFind_key there
    obtain ⟨owner, owned⟩ := mapped.owned e inside
    exact (owner_unique sound owned owns (mapped.circId e inside)).2
  cases direction with
  | outbound =>
    have search : findOutbound mux (env.circuit circ) = htFind mux chan circId := by
      simp only [findOutbound, owns.1, Option.bind_some, owns.2]
    cases there : htFind mux chan circId with
    | some e =>
      refine ⟨.outbound, ?_, fun x same => agrees x (there.trans same)⟩
      simp only [detachSearch, search, there]
    | none =>
      have notInbound : findInbound mux (env.circuit circ) = none :=
        findInbound_eq_none mapped fun isOr comes => sound.onward circ isOr comes owns.1
      simp only [detachSearch, search, there, notInbound]
      split
      · exact ⟨.inbound, rfl, fun _ absurd => by cases absurd⟩
      · exact ⟨.outbound, by rw [owns.1]; rfl, fun _ absurd => by cases absurd⟩
  | inbound =>
    have notOutbound := findOutbound_eq_none mapped (sound.onward circ owns.1 owns.2.1)
    have search : findInbound mux (env.circuit circ) = htFind mux chan circId := by
      simp only [findInbound, if_pos owns.1, owns.2.1, Option.bind_some, owns.2.2]
    refine ⟨.inbound, ?_, agrees⟩
    simp [detachSearch, notOutbound, search, owns.1, owns.2.1]

/-- The state after an entry was removed. -/
theorem Kept.remove {s' : MuxState} (kept : Kept chan env s) (inside : e ∈ s.mux.chanidCircidMap)
    (circuits : s'.mux.nCircuits = s.mux.nCircuits - 1)
    (active : s'.mux.nActiveCircuits = s.mux.nActiveCircuits - activity e.muxinfo.cellCount)
    (cells : s'.mux.nCells = s.mux.nCells - e.muxinfo.cellCount)
    (entries : s'.mux.chanidCircidMap = others s.mux e)
    (policy : PolicyKept env s'.mux.policy s'.mem (others s.mux e)) : Kept chan env s' := by
  have perm := entries_perm kept.mapped inside
  constructor
  · rw [entries]
    exact (kept.mapped.of_perm perm).tail
  · rw [entries]
    exact (kept.tallied.of_perm perm).remove circuits active cells
  · rw [entries]
    exact policy

theorem circuitmuxDetachCircuit_kept (sound : SoundEnvironment env chan) (kept : Kept chan env s)
    (able : s.mux.policy.isSome ∨ ∀ e ∈ s.mux.chanidCircidMap, e.muxinfo.cellCount = 0)
    (owns : Owns env circ direction chan circId) :
    ∃ s', circuitmuxDetachCircuit env s circ = some s' ∧ Kept chan env s'
      ∧ s'.globals = s.globals
      ∧ (ServedMux s → (∀ e, (detachSearch s.mux (env.circuit circ)).1 = some e →
          e.muxinfo.cellCount > 0 → Fits s e) → ServedMux s') := by
  obtain ⟨searched, search, agrees⟩ := detachSearch_owns sound kept.mapped owns
  cases there : htFind s.mux chan circId with
  | none =>
    rw [there] at search
    refine ⟨s, ?_, kept, rfl, fun served _ => served⟩
    simp [circuitmuxDetachCircuit, search]
  | some e =>
    rw [there] at search
    have way := agrees e there
    obtain ⟨inside, -, sameCirc⟩ := htFind_key there
    have perm := entries_perm kept.mapped inside
    by_cases busy : e.muxinfo.cellCount > 0
    · obtain ⟨pol, policy⟩ : ∃ pol, s.mux.policy = some pol := by
        rcases able with installed | idle
        · exact Option.isSome_iff_exists.mp installed
        · exact absurd (idle e inside) ((uint32_pos_iff _).mp busy)
      have scheduled := (kept.scheduled policy).of_perm perm
      obtain ⟨r, pol', mem', data, removed, scheduled', heap⟩ := scheduled.deactivate busy
      obtain ⟨owner, owned⟩ := kept.mapped.owned e inside
      have same := (owner_unique sound owned (sameCirc ▸ owns) (kept.mapped.circId e inside)).1
      subst same
      have found := circuitmuxFindMapEntry_owner _ sound kept.mapped inside owned
      have inactive := circuitmuxMakeCircuitInactive_eq (s := countInactive
        { s with mux := { s.mux with nCircuits := s.mux.nCircuits - 1 } }) policy found data removed
      refine ⟨⟨htRemove { s.mux with
          nCircuits := s.mux.nCircuits - 1
          nActiveCircuits := s.mux.nActiveCircuits - 1
          nCells := s.mux.nCells - e.muxinfo.cellCount
          policy := some pol' } e, mem', s.globals⟩, ?_, ?_, rfl, ?_⟩
      · simp only [circuitmuxDetachCircuit, search, if_pos busy, Option.bind_eq_bind,
          Option.bind_some, inactive, torAssert, way, ne_eq, reduceCtorEq, not_false_eq_true,
          or_true, if_true]
        rfl
      · apply kept.remove inside
        · rfl
        · simp [htRemove, activity, busy]
        · rfl
        · rfl
        · exact scheduled'.drop rfl
      · intro served fits pol₁ same
        obtain rfl : pol' = pol₁ := Option.some.inj same
        apply heap (served pol policy)
        exact fits e (by rw [search]) busy pol r policy data
    · have idle : e.muxinfo.cellCount = 0 := uint32_eq_zero_of_not_pos busy
      refine ⟨⟨htRemove { s.mux with
          nCircuits := s.mux.nCircuits - 1
          nCells := s.mux.nCells - e.muxinfo.cellCount } e, s.mem, s.globals⟩, ?_, ?_, rfl, ?_⟩
      · have freed : e.muxinfo.policyData = none ∨ s.mux.policy ≠ none := by
          cases policy : s.mux.policy with
          | none =>
            have without := kept.policy
            rw [policy] at without
            exact .inl (without e inside)
          | some pol => exact .inr (Option.some_ne_none pol)
        simp only [circuitmuxDetachCircuit, search, if_neg busy, Option.bind_eq_bind,
          Option.bind_some, torAssert, way, if_pos freed]
        rfl
      · apply kept.remove inside
        · rfl
        · simp [htRemove, activity, idle]
        · rfl
        · rfl
        · have known := kept.policy
          cases policy : s.mux.policy with
          | none =>
            rw [policy] at known
            simp only [htRemove, policy]
            intro x member
            exact known x (perm.mem_iff.mpr (List.mem_cons_of_mem e member))
          | some pol =>
            rw [policy] at known
            simp only [htRemove, policy]
            exact Scheduled.drop (known.of_perm perm) idle
      · exact fun served _ => served

/-! ## Transmission -/

/-- The circuit that the policy picks is the one whose data are at the head of the queue. -/
theorem ewmaPickActiveCircuit_head (sound : SoundEnvironment env chan) (kept : Kept chan env s)
    (policy : s.mux.policy = some pol)
    (found : circuitmuxFindMapEntry env s.mux circ = some (some e))
    (pick : ewmaPickActiveCircuit pol s.mem = some circ) :
    ∃ r, pol.activeCircuitPqueue.head? = some r ∧ e.muxinfo.policyData = some r := by
  obtain ⟨r, head, rfl⟩ := Option.map_eq_some_iff.mp pick
  refine ⟨r, head, ?_⟩
  have scheduled := kept.scheduled policy
  have queued := scheduled.queued.perm.mem_iff.mp (List.mem_of_mem_head? head)
  obtain ⟨x, member, -, data⟩ := mem_activeRefs.mp queued
  obtain ⟨r', same, -, known⟩ := scheduled.given x member
  rw [data] at same
  cases same
  obtain ⟨owner, owned⟩ := kept.mapped.owned x member
  have registered := sound.registered owner _ x.circId owned (kept.mapped.circId x member)
  rw [← kept.mapped.chanId x member, known] at registered
  cases registered
  have found' := circuitmuxFindMapEntry_owner _ sound kept.mapped member owned
  rw [found] at found'
  cases found'
  exact data

/-- The state that `noteXmit` leaves, from what the policy made of it. -/
def noted (s : MuxState) (e : MapEntry) (n : UInt32) (pol : EwmaPolicyData) (mem : EwmaMemory)
    (g : EwmaGlobals) : MuxState :=
  ⟨{ s.mux with
    nCells := s.mux.nCells - n
    chanidCircidMap := (writeEntry s.mux (e.withCount (e.muxinfo.cellCount - n))).chanidCircidMap
    policy := some pol }, mem, g⟩

theorem noteXmit_eq {g' : EwmaGlobals} (enough : n ≤ e.muxinfo.cellCount)
    (policy : s.mux.policy = some pol) (data : e.muxinfo.policyData = some r)
    (sent : ewmaNotifyXmitCells pow s.globals pol s.mem r n = some (g', pol', mem')) :
    noteXmit pow s e n = some (noted s e n pol' mem' g') := by
  simp [noteXmit, noted, torAssert, enough, writeEntry, policy, data, sent]

theorem sub_eq_sub_add_sub (a c n : UInt32) : a - n = a - c + (c - n) := by
  apply UInt32.toBitVec_inj.mp
  simp only [UInt32.toBitVec_sub, UInt32.toBitVec_add]
  bv_omega

theorem circuitmuxNotifyXmitCells_kept (sound : SoundEnvironment env chan)
    (kept : Kept chan env s) (policy : s.mux.policy = some pol) (nonzero : n ≠ 0)
    (enough : n ≤ e.muxinfo.cellCount)
    (found : circuitmuxFindMapEntry env s.mux circ = some (some e))
    (pick : ewmaPickActiveCircuit pol s.mem = some circ) :
    ∃ s', circuitmuxNotifyXmitCells pow env s circ n = some s' ∧ Kept chan env s'
      ∧ s'.globals.ewmaScaleFactor = s.globals.ewmaScaleFactor
      ∧ s'.globals.ewmaTickLen = s.globals.ewmaTickLen
      ∧ (Positive pow → 0 < s.globals.ewmaScaleFactor → ServedMux s →
          (∀ t, noteXmit pow s e n = some t → e.muxinfo.cellCount = n → Fits t e) →
          ServedMux s') := by
  obtain ⟨r, head, data⟩ := ewmaPickActiveCircuit_head sound kept policy found pick
  obtain ⟨inside, owns⟩ := circuitmuxFindMapEntry_some kept.mapped found
  have scheduled := kept.scheduled policy
  obtain ⟨g', polX, memX, sent, queued, framed, scale, tickLen, heap⟩ :=
    ewmaNotifyXmitCells_queued pow s.globals scheduled.queued head ((uint32_pos_iff n).mpr nonzero)
  have xmit := noteXmit_eq pow enough policy data sent
  have busy : e.muxinfo.cellCount > 0 :=
    UInt32.lt_of_lt_of_le ((uint32_pos_iff n).mpr nonzero) enough
  have scheduledX := (scheduled.framed queued framed).of_perm (entries_perm kept.mapped inside)
  have cells : s.mux.nCells - n
      = s.mux.nCells - e.muxinfo.cellCount + (e.muxinfo.cellCount - n) := sub_eq_sub_add_sub ..
  by_cases last : e.muxinfo.cellCount - n = 0
  · obtain ⟨r', pol', mem', same, removed, scheduled', heap'⟩ := scheduledX.deactivate busy
    rw [data] at same
    cases same
    have found' := circuitmuxFindMapEntry_owner
      (writeEntry s.mux (e.withCount (e.muxinfo.cellCount - n))) sound
      (Mapped.writeCount kept.mapped inside) (mem_writeCount kept.mapped inside) owns
    have inactive := circuitmuxMakeCircuitInactive_eq
      (s := countInactive (noted s e n polX memX g')) rfl found' data removed
    have unfolded : circuitmuxNotifyXmitCells pow env s circ n
        = circuitmuxMakeCircuitInactive env (countInactive (noted s e n polX memX g')) circ := by
      simp only [circuitmuxNotifyXmitCells, if_neg nonzero, found, xmit, if_pos last,
        Option.bind_eq_bind, Option.bind_some]
    refine ⟨_, unfolded.trans inactive, ?_, scale, tickLen, ?_⟩
    · apply kept.recount (n := e.muxinfo.cellCount - n) pol' inside
      · rfl
      · simp [countInactive, noted, activity, busy, last]
      · exact cells
      · rfl
      · rfl
      · rw [last]
        exact scheduled'
    · intro positive factor served fits pol₁ same
      obtain rfl : pol' = pol₁ := Option.some.inj same
      apply heap' (heap positive factor (served pol policy))
      have same : e.muxinfo.cellCount = n := by
        rw [UInt32.sub_eq_iff_eq_add.mp last, UInt32.zero_add]
      exact fits _ xmit same polX r rfl data
  · have unfolded : circuitmuxNotifyXmitCells pow env s circ n
        = some (noted s e n polX memX g') := by
      simp only [circuitmuxNotifyXmitCells, if_neg nonzero, found, xmit, if_neg last,
        Option.bind_eq_bind, Option.bind_some]
    refine ⟨_, unfolded, ?_, scale, tickLen, ?_⟩
    · have more : e.muxinfo.cellCount - n > 0 := (uint32_pos_iff _).mpr last
      apply kept.recount (n := e.muxinfo.cellCount - n) polX inside
      · rfl
      · simp [noted, activity, busy, more]
      · exact cells
      · rfl
      · rfl
      · apply scheduledX.recount
        simp [last, (uint32_pos_iff _).mp busy]
    · intro positive factor served _ pol₁ same
      obtain rfl : polX = pol₁ := Option.some.inj same
      exact heap positive factor (served pol policy)

end

end

end RendezMix.Guarantees.MuxCalls

/-!
# Calls about all circuits

Detaching all circuits, and setting or clearing the policy. Both go through the
table: the entries met before have left the old policy, or are in the new one.
-/
namespace RendezMix.Guarantees.MuxAllCircuits

open Library Source CircuitmuxEwma Circuitmux MuxSystem EwmaQueue MuxEntries MuxSchedule MuxCalls

variable (pow : Rat → Rat → Rat) {chan : UInt64} {env : Environment}

section

variable (sound : SoundEnvironment env chan)

include sound

theorem lookup_owner {entries : List MapEntry} (mapped : Mapped chan env entries) {e : MapEntry}
    (inside : e ∈ entries) :
    ∃ circ, env.channelExists e.chanId = true ∧ env.circidMap e.chanId e.circId = some circ
      ∧ Owns env circ e.muxinfo.direction chan e.circId := by
  obtain ⟨circ, owns⟩ := mapped.owned e inside
  refine ⟨circ, ?_, ?_, owns⟩
  · rw [mapped.chanId e inside]
    exact sound.channel
  · rw [mapped.chanId e inside]
    exact sound.registered circ _ e.circId owns (mapped.circId e inside)

/-! ## Detaching all circuits -/

theorem detachOne_kept {s : MuxState} {e : MapEntry} {rest : List MapEntry} (out : List CircRef)
    (entries : s.mux.chanidCircidMap = e :: rest) (mapped : Mapped chan env (e :: rest))
    (policy : PolicyKept env s.mux.policy s.mem (e :: rest))
    (able : s.mux.policy.isSome ∨ ∀ x ∈ e :: rest, x.muxinfo.cellCount = 0) :
    ∃ policy' mem' out', detachOne env s e out
        = some (⟨{ s.mux with policy := policy' }, mem', s.globals⟩, out')
      ∧ PolicyKept env policy' mem' rest ∧ policy'.isSome = s.mux.policy.isSome := by
  obtain ⟨circ, channel, known, owns⟩ := lookup_owner sound mapped (List.mem_cons_self ..)
  have cleared : e.muxinfo.direction = .outbound ∨ (env.circuit circ).magic = .orCircuit := by
    cases way : e.muxinfo.direction with
    | outbound => exact .inl rfl
    | inbound =>
      rw [way] at owns
      exact .inr owns.1
  by_cases busy : e.muxinfo.cellCount > 0
  · obtain ⟨pol, installed⟩ : ∃ pol, s.mux.policy = some pol := by
      rcases able with installed | idle
      · exact Option.isSome_iff_exists.mp installed
      · exact absurd (idle e (List.mem_cons_self ..)) ((uint32_pos_iff _).mp busy)
    rw [installed] at policy
    obtain ⟨r, pol', mem', data, removed, scheduled', -⟩ := Scheduled.deactivate policy busy
    have found := circuitmuxFindMapEntry_owner s.mux sound (entries ▸ mapped)
      (entries ▸ List.mem_cons_self ..) owns
    have inactive := circuitmuxMakeCircuitInactive_eq installed found data removed
    refine ⟨some pol', mem', out ++ [circ], ?_, scheduled'.drop rfl, by rw [installed]; rfl⟩
    simp [detachOne, channel, known, cleared, busy, inactive, torAssert]
  · have idle : e.muxinfo.cellCount = 0 := uint32_eq_zero_of_not_pos busy
    refine ⟨s.mux.policy, s.mem, out ++ [circ], ?_, ?_, rfl⟩
    · have freed : e.muxinfo.policyData = none ∨ s.mux.policy ≠ none := by
        cases installed : s.mux.policy with
        | none =>
          rw [installed] at policy
          exact .inl (policy e (List.mem_cons_self ..))
        | some pol => exact .inr (Option.some_ne_none pol)
      simp [detachOne, channel, known, cleared, busy, torAssert, freed]
    · cases installed : s.mux.policy with
      | none =>
        rw [installed] at policy
        exact fun x inside => policy x (List.mem_cons_of_mem e inside)
      | some pol =>
        rw [installed] at policy
        exact Scheduled.drop policy idle

theorem detachEach_kept (entries : List MapEntry) (s : MuxState) (out : List CircRef)
    (whole : s.mux.chanidCircidMap = entries) (mapped : Mapped chan env entries)
    (policy : PolicyKept env s.mux.policy s.mem entries)
    (able : s.mux.policy.isSome ∨ ∀ e ∈ entries, e.muxinfo.cellCount = 0) :
    ∃ s' out', detachEach env entries s out = some (s', out') ∧ s'.globals = s.globals
      ∧ s'.mux.chanidCircidMap = [] ∧ PolicyKept env s'.mux.policy s'.mem [] := by
  induction entries generalizing s out with
  | nil => exact ⟨s, out, rfl, rfl, whole, policy⟩
  | cons e rest ih =>
    obtain ⟨policy', mem', out₁, first, left, same⟩ :=
      detachOne_kept sound out whole mapped policy able
    have able' : policy'.isSome ∨ ∀ x ∈ rest, x.muxinfo.cellCount = 0 := by
      rcases able with installed | idle
      · exact .inl (same.trans installed)
      · exact .inr fun x inside => idle x (List.mem_cons_of_mem e inside)
    obtain ⟨s', out', tail, globals, empty, policyEnd⟩ :=
      ih ⟨{ s.mux with policy := policy', chanidCircidMap := rest }, mem', s.globals⟩ out₁ rfl
        mapped.tail left able'
    refine ⟨s', out', ?_, globals, empty, policyEnd⟩
    simp only [detachEach, first, Option.bind_eq_bind, Option.bind_some]
    exact tail

theorem circuitmuxDetachAllCircuits_kept {s : MuxState} (kept : Kept chan env s)
    (able : s.mux.policy.isSome ∨ ∀ e ∈ s.mux.chanidCircidMap, e.muxinfo.cellCount = 0) :
    ∃ s' out, circuitmuxDetachAllCircuits env s = some (s', out) ∧ Kept chan env s'
      ∧ s'.globals = s.globals ∧ ServedMux s' := by
  obtain ⟨s', out, result, globals, empty, policy⟩ :=
    detachEach_kept sound s.mux.chanidCircidMap s [] rfl kept.mapped kept.policy able
  refine ⟨{ s' with mux := { s'.mux with nCircuits := 0, nActiveCircuits := 0, nCells := 0 } },
    out, ?_, ?_, globals, ?_⟩
  · simp [circuitmuxDetachAllCircuits, result]
  · constructor
    · simp only [empty]
      constructor
      · exact List.nodup_nil
      · simp
      · simp
      · simp
    · simp only [empty]
      exact ⟨rfl, rfl, rfl⟩
    · simp only [empty]
      exact policy
  · intro pol installed
    simp only at installed
    rw [installed] at policy
    exact Scheduled.served_nil policy

end

/-! ## Setting the policy -/

/-- Two lists of entries that differ in their policy data only. -/
def SameEntries (entries entries' : List MapEntry) : Prop :=
  entries'.map (·.withPolicyData none) = entries.map (·.withPolicyData none)

theorem SameEntries.cons {e e' : MapEntry} {rest rest' : List MapEntry}
    (first : e'.withPolicyData none = e.withPolicyData none) (tail : SameEntries rest rest') :
    SameEntries (e :: rest) (e' :: rest') := by
  simp only [SameEntries, List.map_cons, first, List.cons.injEq, true_and]
  exact tail

theorem Mapped.withoutData {entries : List MapEntry} :
    Mapped chan env (entries.map (·.withPolicyData none)) ↔ Mapped chan env entries := by
  have keys : (entries.map (·.withPolicyData none)).map MapEntry.key
      = entries.map MapEntry.key := by
    rw [List.map_map]
    rfl
  constructor
  · intro mapped
    constructor
    · have distinct := mapped.distinct
      rw [KeyedLists.Distinct, keys] at distinct
      exact distinct
    · exact List.forall_mem_map.mp mapped.chanId
    · intro e inside
      have member : e.withPolicyData none ∈ entries.map (·.withPolicyData none) :=
        List.mem_map_of_mem inside
      exact mapped.circId (e.withPolicyData none) member
    · intro e inside
      have member : e.withPolicyData none ∈ entries.map (·.withPolicyData none) :=
        List.mem_map_of_mem inside
      exact mapped.owned (e.withPolicyData none) member
  · intro mapped
    constructor
    · rw [KeyedLists.Distinct, keys]
      exact mapped.distinct
    · exact List.forall_mem_map.mpr mapped.chanId
    · exact List.forall_mem_map.mpr mapped.circId
    · exact List.forall_mem_map.mpr mapped.owned

theorem Tallied.withoutData {mux : CircuitMux} {entries : List MapEntry} :
    Tallied mux (entries.map (·.withPolicyData none)) ↔ Tallied mux entries := by
  have circuits : entryCount (entries.map (·.withPolicyData none)) = entryCount entries := by
    simp [entryCount]
  have active : activeCount (entries.map (·.withPolicyData none)) = activeCount entries := by
    rw [activeCount, List.countP_map]
    rfl
  have cells : cellTotal (entries.map (·.withPolicyData none)) = cellTotal entries := by
    rw [cellTotal, List.map_map]
    rfl
  constructor
  · intro tallied
    exact ⟨circuits ▸ tallied.circuits, active ▸ tallied.active, cells ▸ tallied.cells⟩
  · intro tallied
    exact ⟨circuits.symm ▸ tallied.circuits, active.symm ▸ tallied.active,
      cells.symm ▸ tallied.cells⟩

section

variable (sound : SoundEnvironment env chan) (g : EwmaGlobals) (entries : List MapEntry)

include sound

theorem switchEach_clear (pol : EwmaPolicyData) (mem : EwmaMemory)
    (mapped : Mapped chan env entries) (scheduled : Scheduled env pol mem entries) :
    ∃ pol' mem', switchEach pow env g entries ⟨some pol, none, mem⟩
      = some (⟨some pol', none, mem'⟩, entries.map (·.withPolicyData none)) := by
  induction entries generalizing pol mem with
  | nil => exact ⟨pol, mem, rfl⟩
  | cons e rest ih =>
    obtain ⟨circ, channel, known, -⟩ := lookup_owner sound mapped (List.mem_cons_self ..)
    by_cases busy : e.muxinfo.cellCount > 0
    · obtain ⟨r, pol₁, mem₁, data, removed, scheduled', -⟩ := scheduled.deactivate busy
      obtain ⟨pol', mem', tail⟩ := ih pol₁ mem₁ mapped.tail (scheduled'.drop rfl)
      refine ⟨pol', mem', ?_⟩
      simp [switchEach, switchOne, torAssert, channel, known, leaveOld, busy, data,
        ewmaNotifyCircInactive, removed, joinNew, tail]
    · have idle : e.muxinfo.cellCount = 0 := uint32_eq_zero_of_not_pos busy
      obtain ⟨pol', mem', tail⟩ := ih pol mem mapped.tail (scheduled.drop idle)
      refine ⟨pol', mem', ?_⟩
      simp [switchEach, switchOne, torAssert, channel, known, leaveOld, busy, joinNew, tail]

/-- Setting a policy gives every entry data; those in `done` have theirs already. -/
theorem switchEach_set (done : List MapEntry) (pol : EwmaPolicyData) (mem : EwmaMemory)
    (mapped : Mapped chan env entries) (bare : ∀ e ∈ entries, e.muxinfo.policyData = none)
    (scheduled : Scheduled env pol mem done) :
    ∃ pol' mem' entries', switchEach pow env g entries ⟨none, some pol, mem⟩
        = some (⟨none, some pol', mem'⟩, entries')
      ∧ Scheduled env pol' mem' (entries' ++ done) ∧ SameEntries entries entries'
      ∧ (Served pol mem → Served pol' mem') := by
  induction entries generalizing done pol mem with
  | nil => exact ⟨pol, mem, [], rfl, scheduled, rfl, id⟩
  | cons e rest ih =>
    obtain ⟨circ, channel, known, -⟩ := lookup_owner sound mapped (List.mem_cons_self ..)
    have without := bare e (List.mem_cons_self ..)
    have others := fun x inside => bare x (List.mem_cons_of_mem e inside)
    let e' := e.withPolicyData (some mem.next)
    have given : Scheduled env pol (ewmaAllocCircData g mem circ) (e'.withCount 0 :: done) :=
      scheduled.alloc g rfl rfl known
    have heap := scheduled.served_alloc g circ
    by_cases busy : e.muxinfo.cellCount > 0
    · obtain ⟨r, pol₁, mem₁, data, added, scheduled', heap₁⟩ := given.activate pow g rfl busy
      obtain rfl : mem.next = r := Option.some.inj data
      obtain ⟨pol', mem', rest', tail, all, same, heap'⟩ :=
        ih (e' :: done) pol₁ mem₁ mapped.tail others scheduled'
      refine ⟨pol', mem', e' :: rest', ?_, all.of_perm List.perm_middle, same.cons rfl, ?_⟩
      · simp [switchEach, switchOne, torAssert, channel, known, leaveOld, without, joinNew, busy,
          ewmaNotifyCircActive, added, tail, e']
      · exact fun served => heap' (heap₁ (heap served))
    · have idle : e.muxinfo.cellCount = 0 := uint32_eq_zero_of_not_pos busy
      have unchanged : e'.withCount 0 = e' := by
        simp only [e', MapEntry.withCount, MapEntry.withPolicyData, idle]
      rw [unchanged] at given
      obtain ⟨pol', mem', rest', tail, all, same, heap'⟩ :=
        ih (e' :: done) pol (ewmaAllocCircData g mem circ) mapped.tail others given
      refine ⟨pol', mem', e' :: rest', ?_, all.of_perm List.perm_middle, same.cons rfl, ?_⟩
      · simp [switchEach, switchOne, torAssert, channel, known, leaveOld, without, joinNew, busy,
          tail, e']
      · exact fun served => heap' (heap served)

theorem circuitmuxSetPolicy_kept {s : MuxState} (kept : Kept chan env s) (ewma : Bool) :
    ∃ s', circuitmuxSetPolicy pow env s ewma = some s' ∧ Kept chan env s'
      ∧ s'.globals = s.globals ∧ (ServedMux s → ServedMux s') := by
  by_cases trivial_ : s.mux.policy.isSome = ewma
  · exact ⟨s, if_pos trivial_, kept, rfl, id⟩
  · cases policy : s.mux.policy with
    | some pol =>
      have clear : ewma = false := by simpa [policy] using trivial_
      subst clear
      obtain ⟨pol', mem', result⟩ := switchEach_clear pow sound s.globals s.mux.chanidCircidMap
        pol s.mem kept.mapped (kept.scheduled policy)
      refine ⟨⟨{ s.mux with
          policy := none
          chanidCircidMap := s.mux.chanidCircidMap.map (·.withPolicyData none) }, mem',
          s.globals⟩, ?_, ⟨?_, ?_, ?_⟩, rfl, ?_⟩
      · simp [circuitmuxSetPolicy, policy, result]
      · exact Mapped.withoutData.mpr kept.mapped
      · have tallied := Tallied.withoutData.mpr kept.tallied
        exact ⟨tallied.circuits, tallied.active, tallied.cells⟩
      · exact List.forall_mem_map.mpr fun _ _ => rfl
      · intro _ pol₁ same
        cases same
    | none =>
      have set_ : ewma = true := by simpa [policy] using trivial_
      subst set_
      have bare := kept.policy
      rw [policy] at bare
      obtain ⟨pol', mem', entries, result, scheduled, same, heap⟩ := switchEach_set pow sound
        s.globals s.mux.chanidCircidMap [] (ewmaAllocCmuxData s.globals) s.mem kept.mapped bare
        (Scheduled.nil rfl)
      refine ⟨⟨{ s.mux with policy := some pol', chanidCircidMap := entries }, mem',
          s.globals⟩, ?_, ⟨?_, ?_, ?_⟩, rfl, ?_⟩
      · simp [circuitmuxSetPolicy, policy, result]
      · have mapped := Mapped.withoutData.mpr kept.mapped
        rw [← same] at mapped
        exact Mapped.withoutData.mp mapped
      · have tallied := Tallied.withoutData.mpr kept.tallied
        rw [← same] at tallied
        have counters := Tallied.withoutData.mp tallied
        exact ⟨counters.circuits, counters.active, counters.cells⟩
      · rw [List.append_nil] at scheduled
        exact scheduled
      · intro _ pol₁ installed
        obtain rfl : pol' = pol₁ := Option.some.inj installed
        have start : Scheduled env (ewmaAllocCmuxData s.globals) s.mem [] := Scheduled.nil rfl
        exact heap start.served_nil

end

end RendezMix.Guarantees.MuxAllCircuits
