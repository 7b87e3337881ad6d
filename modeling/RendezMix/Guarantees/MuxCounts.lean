import RendezMix.Guarantees.DestroyAccounting

/-!
# Counts and queues

The mux records a number of cells for each circuit, and the circuit has a queue. `Recounted` is what
a pass of a flush does to both: one entry gets another count, one queue may lose a cell, and nothing
else about cells changes.
-/
namespace RendezMix.Guarantees.MuxCounts

open Library Source CircuitmuxEwma Circuitmux MuxSystem ChannelFlush MuxEntries MuxSchedule MuxCalls
open MuxWorld
open MuxBookkeeping DestroyAccounting

/-- Each circuit has as many cells in its queue as the mux has recorded for it. -/
def InStep (w : MuxWorld) : Prop :=
  ∀ e ∈ w.entries, ∀ circ, Owns w.env circ e.muxinfo.direction w.chan e.circId →
    e.muxinfo.cellCount = cellsOn (w.env.circuit circ) e.muxinfo.direction

/-- The length of the queue of the circuit that an entry is about. -/
def queueLength (w : MuxWorld) (e : MapEntry) : Nat :=
  match w.env.circidMap e.chanId e.circId with
  | some circ => (cellsOn (w.env.circuit circ) e.muxinfo.direction).toNat
  | none => 0

section Entries

variable (pow : Rat → Rat → Rat) {env : Environment} {s s' : MuxState} {circ : CircRef}
  {e : MapEntry}

theorem circuitmuxMakeCircuitInactive_entries
    (result : circuitmuxMakeCircuitInactive env s circ = some s') :
    s'.mux.chanidCircidMap = s.mux.chanidCircidMap ∧ s'.mux.policy.isSome := by
  simp only [circuitmuxMakeCircuitInactive, Option.bind_eq_bind, Option.bind_eq_some_iff] at result
  obtain ⟨pol, -, found, -, hashent, -, cdata, -, changed, -, last⟩ := result
  cases last
  exact ⟨rfl, rfl⟩

theorem circuitmuxMakeCircuitActive_entries
    (result : circuitmuxMakeCircuitActive pow env s circ = some s') :
    s'.mux.chanidCircidMap = s.mux.chanidCircidMap ∧ s'.mux.policy.isSome := by
  simp only [circuitmuxMakeCircuitActive, Option.bind_eq_bind, Option.bind_eq_some_iff] at result
  obtain ⟨pol, -, found, -, hashent, -, cdata, -, changed, -, last⟩ := result
  cases last
  exact ⟨rfl, rfl⟩

theorem changeActivity_entries {old new : UInt32} (installed : s.mux.policy.isSome)
    (result : changeActivity pow env s circ old new = some s') :
    s'.mux.chanidCircidMap = s.mux.chanidCircidMap ∧ s'.mux.policy.isSome := by
  unfold changeActivity at result
  split at result
  · have changed := circuitmuxMakeCircuitInactive_entries result
    exact changed
  · split at result
    · have changed := circuitmuxMakeCircuitActive_entries pow result
      exact changed
    · cases result
      exact ⟨rfl, installed⟩

theorem circuitmuxSetNumCells_entries {n : UInt32}
    (found : circuitmuxFindMapEntry env s.mux circ = some (some e))
    (result : circuitmuxSetNumCells pow env s circ n = some s') :
    s'.mux.chanidCircidMap = (writeEntry s.mux (e.withCount n)).chanidCircidMap
      ∧ s'.mux.policy.isSome := by
  simp only [circuitmuxSetNumCells, found, Option.bind_eq_bind, Option.bind_some,
    Option.bind_eq_some_iff] at result
  obtain ⟨pol, policy, changed⟩ := result
  have installed : s.mux.policy.isSome := Option.isSome_of_eq_some policy
  have same := changeActivity_entries pow (by exact installed) changed
  exact same

theorem circuitmuxNotifyXmitCells_entries {n : UInt32} (nonzero : n ≠ 0)
    (found : circuitmuxFindMapEntry env s.mux circ = some (some e))
    (result : circuitmuxNotifyXmitCells pow env s circ n = some s') :
    s'.mux.chanidCircidMap
        = (writeEntry s.mux (e.withCount (e.muxinfo.cellCount - n))).chanidCircidMap
      ∧ s'.mux.policy.isSome := by
  rw [circuitmuxNotifyXmitCells, if_neg nonzero] at result
  simp only [found, Option.bind_eq_bind, Option.bind_some, Option.bind_eq_some_iff] at result
  obtain ⟨mid, xmit, after⟩ := result
  have noted : mid.mux.chanidCircidMap
      = (writeEntry s.mux (e.withCount (e.muxinfo.cellCount - n))).chanidCircidMap
      ∧ mid.mux.policy.isSome := by
    simp only [noteXmit, Option.bind_eq_bind, Option.bind_eq_some_iff] at xmit
    obtain ⟨-, -, pol, -, cdata, -, sent, -, last⟩ := xmit
    cases last
    exact ⟨rfl, rfl⟩
  split at after
  · have made := circuitmuxMakeCircuitInactive_entries after
    exact ⟨made.1.trans noted.1, made.2⟩
  · cases after
    exact noted

end Entries

/-! ## Owners -/

section

variable {w w' : MuxWorld} {n : UInt32} {rest : List MapEntry}

/-- The circuit of an entry: how it is found, and what its queue is. -/
theorem booked_owner (booked : Booked w) {e : MapEntry} (inside : e ∈ w.entries) :
    ∃ circ, Owns w.env circ e.muxinfo.direction w.chan e.circId
      ∧ w.env.circidMap e.chanId e.circId = some circ
      ∧ circuitmuxFindMapEntry w.env w.mux circ = some (some e)
      ∧ queueLength w e = (cellsOn (w.env.circuit circ) e.muxinfo.direction).toNat := by
  have mapped := booked.kept.mapped
  obtain ⟨circ, owns⟩ := mapped.owned e inside
  have known := booked.sound.registered circ _ e.circId owns (mapped.circId e inside)
  rw [← mapped.chanId e inside] at known
  have found := circuitmuxFindMapEntry_owner w.mux booked.sound mapped inside owns
  refine ⟨circ, owns, known, found, ?_⟩
  rw [queueLength, known]

theorem inStep_iff (booked : Booked w) :
    InStep w ↔ ∀ e ∈ w.entries, queueLength w e = e.muxinfo.cellCount.toNat := by
  have mapped := booked.kept.mapped
  constructor
  · intro inStep e inside
    obtain ⟨circ, owns, -, -, queue⟩ := booked_owner booked inside
    rw [queue, inStep e inside circ owns]
  · intro equal e inside circ owns
    obtain ⟨owner, owned, -, -, queue⟩ := booked_owner booked inside
    obtain ⟨rfl, -⟩ := owner_unique booked.sound owned owns (mapped.circId e inside)
    apply UInt32.toNat_inj.mp
    rw [← equal e inside, queue]

theorem directionOn_owner {env : Environment} {chan : UInt64} (sound : SoundEnvironment env chan)
    {circ : CircRef} {direction : CellDirection} {circId : UInt32}
    (owns : Owns env circ direction chan circId) :
    directionOn chan (env.circuit circ) = direction := by
  rw [directionOn]
  cases direction with
  | outbound => rw [if_pos owns.1]
  | inbound => rw [if_neg (sound.onward circ owns.1 owns.2.1)]

theorem mem_others (booked : Booked w) {e x : MapEntry} (member : x ∈ others w.mux e) :
    x ∈ w.entries ∧ x.key ≠ e.key := by
  constructor
  · exact List.mem_of_mem_eraseP member
  · exact booked.kept.mapped.distinct.absent_remove e.key x member

/-! ## Queues -/

theorem queueLength_withCells {e : MapEntry} {circ : CircRef} (n : UInt32)
    (known : w.env.circidMap e.chanId e.circId = some circ) :
    queueLength (withCells w circ e.muxinfo.direction n) e = n.toNat := by
  have known' : (withCells w circ e.muxinfo.direction n).env.circidMap e.chanId e.circId
      = some circ := known
  rw [queueLength, known']
  simp only [withCells, Function.update_self]
  cases e.muxinfo.direction <;> rfl

theorem queueLength_withCells_others (booked : Booked w) {e x : MapEntry} {circ : CircRef}
    (n : UInt32) (inside : e ∈ w.entries)
    (owns : Owns w.env circ e.muxinfo.direction w.chan e.circId) (member : x ∈ others w.mux e) :
    queueLength (withCells w circ e.muxinfo.direction n) x = queueLength w x := by
  obtain ⟨inside', other⟩ := mem_others booked member
  obtain ⟨owner, owned, known, -, queue⟩ := booked_owner booked inside'
  have known' : (withCells w circ e.muxinfo.direction n).env.circidMap x.chanId x.circId
      = some owner := known
  rw [queue, queueLength, known']
  by_cases same : owner = circ
  · subst same
    have way : x.muxinfo.direction ≠ e.muxinfo.direction := by
      intro sameWay
      apply other
      rw [sameWay] at owned
      have id : x.circId = e.circId := by
        cases direction : e.muxinfo.direction with
        | outbound =>
          rw [direction] at owned owns
          exact owned.2.symm.trans owns.2
        | inbound =>
          rw [direction] at owned owns
          exact owned.2.2.symm.trans owns.2.2
      have mapped := booked.kept.mapped
      rw [MapEntry.key, MapEntry.key, mapped.chanId x inside', mapped.chanId e inside, id]
    simp only [withCells, Function.update_self]
    cases there : x.muxinfo.direction <;> cases here : e.muxinfo.direction
    · exact absurd (there.trans here.symm) way
    · rfl
    · rfl
    · exact absurd (there.trans here.symm) way
  · simp only [withCells, Function.update_of_ne same]

/-! ## One entry changes -/

/-- The entry `e` gets the count `n`, and the queues of the other entries stay as they are. -/
structure Recounted (w w' : MuxWorld) (e : MapEntry) (n : UInt32) (rest : List MapEntry) : Prop where
  before : w.entries.Perm (e :: rest)
  after : w'.entries.Perm (e.withCount n :: rest)
  others : ∀ x ∈ rest, queueLength w' x = queueLength w x
  destroys : w'.mux.destroyCellQueue = w.mux.destroyCellQueue

/-- The cells that are counted or queued: each pass of a flush makes them fewer. -/
def work (w : MuxWorld) : Nat :=
  w.mux.destroyCellQueue.length + cellTotal w.entries + (w.entries.map (queueLength w)).sum

theorem Recounted.work_eq {e : MapEntry} (recounted : Recounted w w' e n rest) :
    work w' + e.muxinfo.cellCount.toNat + queueLength w e
      = work w + n.toNat + queueLength w' e := by
  have same : (rest.map (queueLength w')) = rest.map (queueLength w) :=
    List.map_congr_left recounted.others
  have own : queueLength w' (e.withCount n) = queueLength w' e := rfl
  have count : (e.withCount n).muxinfo.cellCount = n := rfl
  simp only [work, cellTotal, (recounted.before.map _).sum_nat,
    (recounted.after.map _).sum_nat, List.map_cons, List.sum_cons, recounted.destroys, same, own,
    count]
  omega

theorem Recounted.total_eq {e : MapEntry} (recounted : Recounted w w' e n rest) :
    cellTotal w'.entries + e.muxinfo.cellCount.toNat = cellTotal w.entries + n.toNat := by
  have count : (e.withCount n).muxinfo.cellCount = n := rfl
  simp only [cellTotal, (recounted.before.map _).sum_nat, (recounted.after.map _).sum_nat,
    List.map_cons, List.sum_cons, count]
  omega

theorem Recounted.forall_entries {e : MapEntry} (recounted : Recounted w w' e n rest)
    (relation : Nat → Nat → Prop) :
    (∀ x ∈ w'.entries, relation (queueLength w' x) x.muxinfo.cellCount.toNat)
      ↔ relation (queueLength w' e) n.toNat
        ∧ ∀ x ∈ rest, relation (queueLength w x) x.muxinfo.cellCount.toNat := by
  constructor
  · intro all
    constructor
    · exact all (e.withCount n) (recounted.after.mem_iff.mpr (List.mem_cons_self ..))
    · intro x member
      rw [← recounted.others x member]
      exact all x (recounted.after.mem_iff.mpr (List.mem_cons_of_mem _ member))
  · intro ⟨own, others⟩ x member
    rcases List.mem_cons.mp (recounted.after.mem_iff.mp member) with rfl | inRest
    · exact own
    · rw [recounted.others x inRest]
      exact others x inRest

end

end RendezMix.Guarantees.MuxCounts
