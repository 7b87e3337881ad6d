import RendezMix.Guarantees.MuxCounts

/-!
# The counts of a mux under a flush

A failed write takes a cell out of the queue of a circuit and does not tell the mux, which then
picks the same circuit again, until a write succeeds or the queue is empty. Only a DESTROY cell that
brings the flush to its maximum can come between.
-/
namespace RendezMix.Guarantees.FlushSteps

open Library Source CircuitmuxEwma Circuitmux MuxSystem ChannelFlush MuxEntries MuxSchedule MuxCalls
open MuxWorld
open MuxFrames MuxBookkeeping DestroyAccounting MuxCounts

variable (pow : Rat → Rat → Rat)

/-! ## What is written -/

/-- A pass writes a DESTROY cell or a cell of a circuit, or finds the queue of a circuit empty. -/
inductive PassKind
  | destroy
  | cell
  | empty
  deriving DecidableEq

/-- `none` if there is nothing to send. -/
def passKind (w : MuxWorld) : Option PassKind :=
  match circuitmuxGetFirstActiveCircuit w.state with
  | some (_, true, _) => some .destroy
  | some (some circ, false, _) =>
      let c := w.env.circuit circ
      if cellsOn c (directionOn w.chan c) = 0 then some .empty else some .cell
  | _ => none

/-- The passes of the main loop, each with the result of its write. -/
def flushPasses (max : Nat) : List Bool → Nat → MuxWorld → List (PassKind × Bool)
  | writes, nFlushed, w =>
      if nFlushed ≥ max then []
      else
        match writes with
        | [] => []
        | writeOk :: writes =>
            match passKind w, flushPass pow w writeOk with
            | some kind, some (some sent, w, _) =>
                (kind, writeOk) :: flushPasses max writes (nFlushed + sent) w
            | _, _ => []

/-- The results of the calls of `channel_write_packed_cell`. -/
def cellWrites (passes : List (PassKind × Bool)) : List Bool :=
  (passes.filter fun pass => pass.1 ≠ .empty).map Prod.snd

/-- The cells sent in a pass. -/
def PassKind.sent (kind : PassKind) (writeOk : Bool) : Nat :=
  if kind ≠ .empty ∧ writeOk = true then 1 else 0

/-- Whether the last pass about a circuit failed to write its cell, after another pass. -/
def failedAfter (failed : Bool) : PassKind × Bool → Bool
  | (.destroy, _) => failed
  | (.cell, writeOk) => !writeOk
  | (.empty, _) => false

def lastCellFailed (passes : List (PassKind × Bool)) : Bool := passes.foldl failedAfter false

theorem count_cellWrites_cons (pass : PassKind × Bool) (passes : List (PassKind × Bool)) :
    (cellWrites (pass :: passes)).count true
      = pass.1.sent pass.2 + (cellWrites passes).count true := by
  obtain ⟨kind, writeOk⟩ := pass
  cases kind <;> cases writeOk <;> simp [cellWrites, PassKind.sent] <;> omega

/-! ## Before each pass -/

/-- The books are kept, a policy is set, and the mux counts all cells. -/
structure Ready (w : MuxWorld) : Prop where
  booked : Booked w
  policy : w.mux.policy.isSome
  cells : w.mux.nCells.toNat = cellTotal w.entries

/-- The policy would pick the circuit of the entry. -/
def Picked (w : MuxWorld) (e : MapEntry) : Prop :=
  ∃ pol r, w.mux.policy = some pol ∧ pol.activeCircuitPqueue.head? = some r
    ∧ e.muxinfo.policyData = some r

/-- After a failed write the circuit to pick has fewer cells than the mux thinks. All other circuits
are in step. -/
def Counts (w : MuxWorld) : Bool → Prop
  | false => ∀ e ∈ w.entries, queueLength w e = e.muxinfo.cellCount.toNat
  | true => ∃ e rest, w.entries.Perm (e :: rest) ∧ Picked w e
      ∧ queueLength w e < e.muxinfo.cellCount.toNat
      ∧ ∀ x ∈ rest, queueLength w x = x.muxinfo.cellCount.toNat

theorem Counts.inStep_iff {w : MuxWorld} {failed : Bool} (counts : Counts w failed)
    (booked : Booked w) : InStep w ↔ failed = false := by
  rw [MuxCounts.inStep_iff booked]
  cases failed with
  | false => exact ⟨fun _ => rfl, fun _ => counts⟩
  | true =>
    obtain ⟨e, rest, perm, -, less, -⟩ := counts
    constructor
    · intro equal
      have same := equal e (perm.mem_iff.mpr (List.mem_cons_self ..))
      omega
    · intro impossible
      cases impossible

theorem Ready.of_recounted {w w' : MuxWorld} {e : MapEntry} {n : UInt32} {rest : List MapEntry}
    (ready : Ready w) (recounted : Recounted w w' e n rest) (booked : Booked w')
    (policy : w'.mux.policy.isSome) (fewer : n ≤ e.muxinfo.cellCount) : Ready w' := by
  refine ⟨booked, policy, ?_⟩
  have total := recounted.total_eq
  have before := ready.cells
  have below := w.mux.nCells.toNat_lt
  have fewer' := UInt32.le_iff_toNat_le.mp fewer
  have modulo := booked.bookkeeping.cells
  rw [modulo]
  apply Nat.mod_eq_of_lt
  change cellTotal w'.entries < 2 ^ 32
  omega

theorem Ready.picked {w : MuxWorld} (ready : Ready w) (active : w.mux.nActiveCircuits > 0) :
    ∃ e ∈ w.entries, e.muxinfo.cellCount > 0 ∧ Picked w e := by
  obtain ⟨pol, policy⟩ := Option.isSome_iff_exists.mp ready.policy
  obtain ⟨circ, pick⟩ := pick_of_active ready.booked policy active
  obtain ⟨r, head, -⟩ := Option.map_eq_some_iff.mp pick
  have scheduled := ready.booked.kept.scheduled policy
  have queued := scheduled.queued.perm.mem_iff.mp (List.mem_of_mem_head? head)
  obtain ⟨e, inside, busy, data⟩ := mem_activeRefs.mp queued
  exact ⟨e, inside, busy, pol, r, policy, head, data⟩

theorem Picked.unique {w : MuxWorld} (booked : Booked w) {e x : MapEntry} (picked : Picked w e)
    (picked' : Picked w x) (inside : e ∈ w.entries) (inside' : x ∈ w.entries) : e = x := by
  obtain ⟨pol, r, policy, head, data⟩ := picked
  obtain ⟨pol', r', policy', head', data'⟩ := picked'
  rw [policy] at policy'
  cases policy'
  rw [head] at head'
  cases head'
  have scheduled := booked.kept.scheduled policy
  have first := entries_perm booked.kept.mapped inside
  rcases List.mem_cons.mp (first.mem_iff.mp inside') with same | inRest
  · exact same.symm
  · have distinct := (scheduled.of_perm first).distinct
    rw [refsOf_cons data] at distinct
    exact absurd (mem_refsOf.mpr ⟨x, inRest, data'⟩) (List.nodup_cons.mp distinct).1

theorem Picked.owner {w : MuxWorld} (booked : Booked w) {e : MapEntry} (picked : Picked w e)
    (inside : e ∈ w.entries) :
    ∃ pol circ, w.mux.policy = some pol ∧ ewmaPickActiveCircuit pol w.state.mem = some circ
      ∧ Owns w.env circ e.muxinfo.direction w.chan e.circId
      ∧ circuitmuxFindMapEntry w.env w.mux circ = some (some e)
      ∧ queueLength w e = (cellsOn (w.env.circuit circ) e.muxinfo.direction).toNat := by
  obtain ⟨pol, r, policy, head, data⟩ := picked
  obtain ⟨circ, owns, known, found, queue⟩ := booked_owner booked inside
  obtain ⟨r', data', -, given⟩ := (booked.kept.scheduled policy).given e inside
  rw [data] at data'
  cases data'
  rw [known] at given
  cases given
  refine ⟨pol, _, policy, ?_, owns, found, queue⟩
  rw [ewmaPickActiveCircuit, head]
  rfl

theorem Counts.picked {w : MuxWorld} {failed : Bool} (counts : Counts w failed) (booked : Booked w)
    {e : MapEntry} (inside : e ∈ w.entries) (picked : Picked w e) :
    queueLength w e ≤ e.muxinfo.cellCount.toNat
      ∧ ∀ x ∈ others w.mux e, queueLength w x = x.muxinfo.cellCount.toNat := by
  cases failed with
  | false => exact ⟨(counts e inside).le, fun x member => counts x (mem_others booked member).1⟩
  | true =>
    obtain ⟨behind, rest, perm, first, less, equal⟩ := counts
    obtain rfl := picked.unique booked first inside (perm.mem_iff.mpr (List.mem_cons_self ..))
    have same := (entries_perm booked.kept.mapped inside).symm.trans perm
    exact ⟨less.le, fun x member => equal x (same.cons_inv.mem_iff.mp member)⟩

/-! ## A pass about a circuit -/

section Circuit

variable {w : MuxWorld} {e : MapEntry} {circ : CircRef}

section

variable (ready : Ready w) (inside : e ∈ w.entries)

include ready inside

/-- The entry of a circuit without cells is set to zero. -/
theorem sendFrom_empty (found : circuitmuxFindMapEntry w.env w.mux circ = some (some e))
    (writeOk : Bool) (zero : cellsOn (w.env.circuit circ) e.muxinfo.direction = 0) :
    ∃ w', sendFrom pow w circ e.muxinfo.direction writeOk = some (some 0, w')
      ∧ w'.mux.policy.isSome ∧ w'.env = w.env
      ∧ Recounted w w' e 0 (others w.mux e) := by
  obtain ⟨pol, policy⟩ := Option.isSome_iff_exists.mp ready.policy
  have booked := ready.booked
  obtain ⟨s', changed, -⟩ :=
    circuitmuxSetNumCells_kept pow booked.sound booked.kept policy 0 found
  obtain ⟨entries, installed⟩ := circuitmuxSetNumCells_entries pow found changed
  have frame := circuitmuxSetNumCells_frame pow changed
  refine ⟨withState w s', ?_, installed, rfl, ?_⟩
  · rw [sendFrom]
    simp only [if_pos zero, changed, Option.bind_eq_bind, Option.bind_some]
    rfl
  · constructor
    · exact entries_perm booked.kept.mapped inside
    · change s'.mux.chanidCircidMap.Perm _
      rw [entries]
      exact writeEntry_perm (e.withCount 0) booked.kept.mapped inside rfl
    · exact fun _ _ => rfl
    · exact congrArg Prod.fst frame

/-- A cell whose write fails is gone, and the mux does not know. -/
theorem sendFrom_failed (owns : Owns w.env circ e.muxinfo.direction w.chan e.circId)
    (some_ : cellsOn (w.env.circuit circ) e.muxinfo.direction ≠ 0) :
    ∃ w', sendFrom pow w circ e.muxinfo.direction false = some (some 0, w')
      ∧ w'.state = w.state
      ∧ queueLength w' e = (cellsOn (w.env.circuit circ) e.muxinfo.direction - 1).toNat
      ∧ Recounted w w' e e.muxinfo.cellCount (others w.mux e) := by
  obtain ⟨owner, owned, known, -⟩ := booked_owner ready.booked inside
  obtain ⟨rfl, -⟩ := owner_unique ready.booked.sound owned owns
    (ready.booked.kept.mapped.circId e inside)
  refine ⟨withCells w owner e.muxinfo.direction
    (cellsOn (w.env.circuit owner) e.muxinfo.direction - 1), ?_, rfl,
    queueLength_withCells _ known, ?_⟩
  · rw [sendFrom]
    simp only [if_neg some_]
    rfl
  · constructor
    · exact entries_perm ready.booked.kept.mapped inside
    · exact entries_perm ready.booked.kept.mapped inside
    · exact fun x member => queueLength_withCells_others ready.booked _ inside owns member
    · rfl

/-- A cell is written, and the mux is told how many are left. -/
theorem sendFrom_sent (busy : e.muxinfo.cellCount > 0) {pol : EwmaPolicyData}
    (policy : w.mux.policy = some pol) (pick : ewmaPickActiveCircuit pol w.state.mem = some circ)
    (owns : Owns w.env circ e.muxinfo.direction w.chan e.circId)
    (some_ : cellsOn (w.env.circuit circ) e.muxinfo.direction ≠ 0) :
    ∃ w', sendFrom pow w circ e.muxinfo.direction true = some (some 1, w')
      ∧ w'.mux.policy.isSome
      ∧ queueLength w' e = (cellsOn (w.env.circuit circ) e.muxinfo.direction - 1).toNat
      ∧ Recounted w w' e (cellsOn (w.env.circuit circ) e.muxinfo.direction - 1)
        (others w.mux e) := by
  obtain ⟨owner, owned, known, -⟩ := booked_owner ready.booked inside
  obtain ⟨rfl, -⟩ := owner_unique ready.booked.sound owned owns
    (ready.booked.kept.mapped.circId e inside)
  generalize left : cellsOn (w.env.circuit owner) e.muxinfo.direction - 1 = n
  -- the cell is out of the queue
  let popped := withCells w owner e.muxinfo.direction n
  have booked : Booked popped := booked_withCells ready.booked owner e.muxinfo.direction n
  have mapped := booked.kept.mapped
  have ownsPopped : Owns popped.env owner e.muxinfo.direction w.chan e.circId :=
    owns_withCells.mpr owned
  have found := circuitmuxFindMapEntry_owner popped.mux booked.sound mapped inside ownsPopped
  have enough : 1 ≤ e.muxinfo.cellCount := by
    apply UInt32.le_iff_toNat_le.mpr
    exact UInt32.lt_iff_toNat_lt.mp busy
  -- the mux is told that a cell was sent
  obtain ⟨s₁, noted, kept₁, -⟩ := circuitmuxNotifyXmitCells_kept pow booked.sound booked.kept policy
    (by decide) enough found pick
  obtain ⟨entries₁, installed₁⟩ := circuitmuxNotifyXmitCells_entries pow (by decide) found noted
  have frame₁ := circuitmuxNotifyXmitCells_frame pow noted
  obtain ⟨pol₁, policy₁⟩ := Option.isSome_iff_exists.mp installed₁
  let e₁ := e.withCount (e.muxinfo.cellCount - 1)
  have inside₁ : e₁ ∈ s₁.mux.chanidCircidMap := by
    rw [entries₁]
    exact mem_writeCount mapped inside
  have found₁ := circuitmuxFindMapEntry_owner (e := e₁) s₁.mux booked.sound kept₁.mapped inside₁
    ownsPopped
  -- and how many are left
  obtain ⟨s₂, changed, -⟩ := circuitmuxSetNumCells_kept pow booked.sound kept₁ policy₁ n found₁
  obtain ⟨entries₂, installed₂⟩ := circuitmuxSetNumCells_entries pow found₁ changed
  have frame₂ := circuitmuxSetNumCells_frame pow changed
  refine ⟨withState popped s₂, ?_, installed₂, queueLength_withCells n known, ?_⟩
  · rw [sendFrom]
    simp only [if_neg some_, left, if_true]
    rw [noted]
    change (circuitmuxSetNumCells pow popped.env s₁ owner n >>= _) = _
    rw [changed]
    rfl
  · constructor
    · exact entries_perm ready.booked.kept.mapped inside
    · change s₂.mux.chanidCircidMap.Perm _
      rw [entries₂]
      have first := writeEntry_perm (e₁.withCount n) kept₁.mapped inside₁ rfl
      apply first.trans
      apply List.Perm.cons
      -- the entries but this one are the same all the time
      have second := entries_perm kept₁.mapped inside₁
      rw [entries₁] at second
      have third := writeEntry_perm e₁ mapped inside rfl
      exact (second.symm.trans third).cons_inv
    · exact fun x member => queueLength_withCells_others ready.booked n inside owned member
    · exact congrArg Prod.fst (frame₂.trans frame₁)

end

theorem toNat_pred (n : UInt32) (some_ : n ≠ 0) : (n - 1).toNat + 1 = n.toNat := by
  have one : (1 : UInt32).toNat = 1 := rfl
  have positive := UInt32.lt_iff_toNat_lt.mp ((uint32_pos_iff n).mpr some_)
  have zero : (0 : UInt32).toNat = 0 := rfl
  rw [UInt32.toNat_sub_of_le n 1 (UInt32.le_iff_toNat_le.mpr (by omega)), one]
  omega

/-- What a pass about the circuit of an entry is. -/
def circuitKind (w : MuxWorld) (circ : CircRef) : PassKind :=
  let c := w.env.circuit circ
  if cellsOn c (directionOn w.chan c) = 0 then .empty else .cell

theorem flushCircuit_step {failed : Bool} (ready : Ready w) (counts : Counts w failed)
    (inside : e ∈ w.entries) (busy : e.muxinfo.cellCount > 0) (picked : Picked w e)
    {pol : EwmaPolicyData} (policy : w.mux.policy = some pol)
    (pick : ewmaPickActiveCircuit pol w.state.mem = some circ) (writeOk : Bool) :
    ∃ w', flushCircuit pow w circ writeOk = some (some ((circuitKind w circ).sent writeOk), w')
      ∧ Ready w' ∧ Counts w' (failedAfter failed (circuitKind w circ, writeOk))
      ∧ work w' < work w := by
  obtain ⟨enough, equal⟩ := counts.picked ready.booked inside picked
  obtain ⟨pol', owner, policy', pick', owns, found, queue⟩ := picked.owner ready.booked inside
  rw [policy] at policy'
  cases policy'
  rw [pick] at pick'
  cases pick'
  have way := directionOn_owner ready.booked.sound owns
  have asserted : directionOn w.chan (w.env.circuit circ) = .outbound
      ∨ (w.env.circuit circ).magic = .orCircuit ∧ (w.env.circuit circ).pChan = some w.chan := by
    rw [way]
    cases side : e.muxinfo.direction with
    | outbound => exact .inl rfl
    | inbound =>
      rw [side] at owns
      exact .inr ⟨owns.1, owns.2.1⟩
  have sends : flushCircuit pow w circ writeOk = sendFrom pow w circ e.muxinfo.direction writeOk := by
    rw [flushCircuit, way]
    rw [way] at asserted
    simp only [torAssert, if_pos asserted]
    rfl
  have positive := UInt32.lt_iff_toNat_lt.mp busy
  have zero : (0 : UInt32).toNat = 0 := rfl
  by_cases none_ : cellsOn (w.env.circuit circ) e.muxinfo.direction = 0
  · obtain ⟨w', result, installed, env, recounted⟩ :=
      sendFrom_empty pow ready inside found writeOk none_
    have kind : circuitKind w circ = .empty := by
      simp only [circuitKind, way, if_pos none_]
    have booked := (flushCircuit_booked pow ready.booked policy pick (sends.trans result)).1
    have queue' : queueLength w' e = queueLength w e := by
      rw [queueLength, queueLength, env]
    rw [none_] at queue
    refine ⟨w', ?_, ready.of_recounted recounted booked installed ?_, ?_, ?_⟩
    · rw [sends, result, kind]
      rfl
    · rw [UInt32.le_iff_toNat_le]
      omega
    · rw [kind]
      exact (recounted.forall_entries (· = ·)).mpr ⟨queue'.trans queue, equal⟩
    · have moved := recounted.work_eq
      omega
  · have kind : circuitKind w circ = .cell := by
      simp only [circuitKind, way, if_neg none_]
    have less := toNat_pred _ none_
    cases writeOk with
    | false =>
      obtain ⟨w', result, state, queue', recounted⟩ := sendFrom_failed pow ready inside owns none_
      have booked := (flushCircuit_booked pow ready.booked policy pick (sends.trans result)).1
      refine ⟨w', ?_, ready.of_recounted recounted booked ?_ ?_, ?_, ?_⟩
      · rw [sends, result, kind]
        rfl
      · rw [mux, state]
        exact ready.policy
      · exact UInt32.le_iff_toNat_le.mpr le_rfl
      · rw [kind]
        refine ⟨e, others w.mux e, recounted.after, ?_, by omega, ?_⟩
        · rw [Picked, mux, state]
          exact picked
        · intro x member
          rw [recounted.others x member]
          exact equal x member
      · have moved := recounted.work_eq
        omega
    | true =>
      obtain ⟨w', result, installed, queue', recounted⟩ :=
        sendFrom_sent pow ready inside busy policy pick owns none_
      have booked := (flushCircuit_booked pow ready.booked policy pick (sends.trans result)).1
      refine ⟨w', ?_, ready.of_recounted recounted booked installed ?_, ?_, ?_⟩
      · rw [sends, result, kind]
        rfl
      · rw [UInt32.le_iff_toNat_le]
        omega
      · rw [kind]
        exact (recounted.forall_entries (· = ·)).mpr ⟨queue', equal⟩
      · have moved := recounted.work_eq
        omega

end Circuit

/-! ## A pass -/

theorem cellTotal_pos (entries : List MapEntry) :
    0 < cellTotal entries ↔ ∃ e ∈ entries, e.muxinfo.cellCount > 0 := by
  rw [cellTotal, List.sum_pos_iff_exists_pos_nat]
  constructor
  · rintro ⟨count, member, positive⟩
    obtain ⟨e, inside, rfl⟩ := List.mem_map.mp member
    exact ⟨e, inside, UInt32.lt_iff_toNat_lt.mpr positive⟩
  · rintro ⟨e, inside, busy⟩
    exact ⟨_, List.mem_map_of_mem inside, UInt32.lt_iff_toNat_lt.mp busy⟩

theorem Ready.active_iff {w : MuxWorld} (ready : Ready w) :
    w.mux.nActiveCircuits > 0 ↔ w.mux.nCells > 0 := by
  have positive : ∀ n : UInt32, n > 0 ↔ 0 < n.toNat := fun _ => UInt32.lt_iff_toNat_lt
  rw [positive, positive, ready.cells, cellTotal_pos, ready.booked.bookkeeping.active,
    List.length_pos_iff_exists_mem]
  apply exists_congr
  intro e
  rw [List.mem_filter, isActive, decide_eq_true_eq]

theorem circuitmuxGetFirstActiveCircuit_ready {w : MuxWorld} (ready : Ready w)
    {pol : EwmaPolicyData} (policy : w.mux.policy = some pol) :
    (w.mux.destroyCellQueue ≠ [] ∧ circuitmuxGetFirstActiveCircuit w.state
        = some (none, true, { w.state with mux := { w.mux with lastCellWasDestroy := true } }))
      ∨ (w.mux.nActiveCircuits > 0 ∧ circuitmuxGetFirstActiveCircuit w.state
        = some (ewmaPickActiveCircuit pol w.state.mem, false,
          { w.state with mux := { w.mux with lastCellWasDestroy := false } }))
      ∨ (¬ w.mux.nActiveCircuits > 0
        ∧ circuitmuxGetFirstActiveCircuit w.state = some (none, false, w.state)) := by
  have policy' : w.state.mux.policy = some pol := policy
  rw [circuitmuxGetFirstActiveCircuit]
  simp only [policy', Option.bind_eq_bind, Option.bind_some]
  by_cases destroy : w.state.mux.destroyCellQueue ≠ []
      ∧ (!w.state.mux.lastCellWasDestroy ∨ w.state.mux.nActiveCircuits = 0)
  · rw [if_pos destroy]
    refine .inl ⟨destroy.1, ?_⟩
    rw [policy]
    rfl
  · rw [if_neg destroy]
    by_cases active : w.state.mux.nActiveCircuits > 0
    · have some_ : w.state.mux.nCells > 0 := ready.active_iff.mp active
      rw [if_pos active]
      simp only [torAssert, if_pos some_, Option.bind_some]
      refine .inr (.inl ⟨active, ?_⟩)
      rw [policy]
      rfl
    · have none_ : w.state.mux.nCells = 0 := by
        by_contra some_
        exact active (ready.active_iff.mpr ((uint32_pos_iff _).mpr some_))
      have empty : w.state.mux.destroyCellQueue = [] := by
        by_contra waiting
        exact destroy ⟨waiting, .inr (uint32_eq_zero_of_not_pos active)⟩
      rw [if_neg active]
      simp only [torAssert, if_pos none_, if_pos empty, Option.bind_some]
      exact .inr (.inr ⟨active, rfl⟩)

theorem Ready.choose {w : MuxWorld} (ready : Ready w) (flag : Bool) :
    Ready (withState w
      { w.state with mux := { w.mux with lastCellWasDestroy := flag } }) := by
  refine ⟨?_, ready.policy, ready.cells⟩
  exact booked_withMux ready.booked { w.mux with lastCellWasDestroy := flag } rfl rfl rfl rfl rfl

section

variable {failed : Bool} {passes : List (PassKind × Bool)}

section

variable {total : Nat} {w' : MuxWorld} {dcell : DestroyCell} {rest : List DestroyCell}
  {max nFlushed : Nat}

theorem Counts.of_entries {w w' : MuxWorld} (counts : Counts w failed)
    (entries : w'.entries = w.entries) (env : w'.env = w.env)
    (policy : w'.mux.policy = w.mux.policy) : Counts w' failed := by
  have queues : ∀ e, queueLength w' e = queueLength w e := by
    intro e
    rw [queueLength, queueLength, env]
  cases failed with
  | false =>
    rw [Counts, entries]
    intro e inside
    rw [queues e]
    exact counts e inside
  | true =>
    obtain ⟨e, rest, perm, picked, less, equal⟩ := counts
    refine ⟨e, rest, ?_, ?_, ?_, ?_⟩
    · rw [entries]
      exact perm
    · rw [Picked, policy]
      exact picked
    · rw [queues e]
      exact less
    · intro x member
      rw [queues x]
      exact equal x member

/-- What the pass is told by the mux, and what it then does. -/
structure PassDone (w : MuxWorld) (failed writeOk : Bool) (kind : PassKind) (w' : MuxWorld) :
    Prop where
  ready : Ready w'
  counts : Counts w' (failedAfter failed (kind, writeOk))
  less : work w' < work w

theorem popDestroy_done {w : MuxWorld} (ready : Ready w) (counts : Counts w failed)
    (writeOk : Bool) (full : w.mux.destroyCellQueue = dcell :: rest) (destroyCtr : Int) :
    PassDone w failed writeOk .destroy (withState w { w.state with
      mux := { w.mux with destroyCellQueue := rest, destroyCtr := destroyCtr } }) := by
  constructor
  · refine ⟨?_, ready.policy, ready.cells⟩
    exact booked_withMux ready.booked _ rfl rfl rfl rfl rfl
  · exact counts.of_entries rfl rfl rfl
  · change rest.length + cellTotal w.entries + (w.entries.map (queueLength w)).sum < work w
    rw [work, full, List.length_cons]
    omega

theorem flushDestroy_step {w : MuxWorld} (ready : Ready w) (counts : Counts w failed)
    (writeOk : Bool) (full : w.mux.destroyCellQueue = dcell :: rest) :
    ∃ w' notes, flushDestroy w writeOk = some (some (PassKind.destroy.sent writeOk), w', notes)
      ∧ PassDone w failed writeOk .destroy w' := by
  have done := popDestroy_done ready counts writeOk full
  rw [flushDestroy]
  simp only [full]
  cases writeOk with
  | true => exact ⟨_, _, rfl, done (w.mux.destroyCtr - 1)⟩
  | false => exact ⟨_, _, rfl, done w.mux.destroyCtr⟩

/-- A pass returns. Either there is nothing to send, and all circuits are in step, or there is less
to do after it. -/
theorem flushPass_step {w : MuxWorld} (ready : Ready w) (counts : Counts w failed)
    (writeOk : Bool) :
    (passKind w = none ∧ flushPass pow w writeOk = some (none, w, []) ∧ failed = false)
      ∨ ∃ kind w' notes, passKind w = some kind
        ∧ flushPass pow w writeOk = some (some (kind.sent writeOk), w', notes)
        ∧ PassDone w failed writeOk kind w' := by
  obtain ⟨pol, policy⟩ := Option.isSome_iff_exists.mp ready.policy
  rcases circuitmuxGetFirstActiveCircuit_ready ready policy with
    ⟨waiting, chosen⟩ | ⟨active, chosen⟩ | ⟨idle, chosen⟩
  · -- a DESTROY cell
    obtain ⟨dcell, rest, full⟩ := List.exists_cons_of_ne_nil waiting
    have kind : passKind w = some .destroy := by rw [passKind, chosen]
    obtain ⟨w', notes, sent, done⟩ := flushDestroy_step (ready.choose true)
      (counts.of_entries rfl rfl rfl) writeOk full
    refine .inr ⟨.destroy, w', .chose true (bothPending w.mux) :: notes, kind, ?_,
      done.ready, done.counts, done.less⟩
    simp only [flushPass, chosen, Option.bind_eq_bind, Option.bind_some, if_true]
    rw [sent]
    rfl
  · -- a circuit
    obtain ⟨e, inside, busy, picked⟩ := ready.picked active
    obtain ⟨pol', circ, policy', pick, -⟩ := picked.owner ready.booked inside
    rw [policy] at policy'
    cases policy'
    rw [pick] at chosen
    have kind : passKind w = some (circuitKind w circ) := by
      simp only [passKind, chosen, circuitKind]
      split <;> rfl
    obtain ⟨w', flushed, ready', counts', less⟩ := flushCircuit_step pow (ready.choose false)
      (counts.of_entries rfl rfl rfl) inside busy picked policy pick writeOk
    refine .inr ⟨circuitKind w circ, w', [.chose false (bothPending w.mux)], kind, ?_, ready',
      counts', less⟩
    simp only [flushPass, chosen, Option.bind_eq_bind, Option.bind_some, Bool.false_eq_true,
      if_false]
    rw [flushed]
    rfl
  · -- nothing
    refine .inl ⟨?_, ?_, ?_⟩
    · rw [passKind, chosen]
    · simp only [flushPass, chosen, Option.bind_eq_bind, Option.bind_some, Bool.false_eq_true,
        if_false]
      rfl
    · cases failed with
      | false => rfl
      | true =>
        obtain ⟨e, rest, perm, -, less, -⟩ := counts
        exfalso
        apply idle
        rw [ready.active_iff]
        apply UInt32.lt_iff_toNat_lt.mpr
        change 0 < w.mux.nCells.toNat
        rw [ready.cells, cellTotal_pos]
        refine ⟨e, perm.mem_iff.mpr (List.mem_cons_self ..), UInt32.lt_iff_toNat_lt.mpr ?_⟩
        exact Nat.zero_lt_of_lt less

/-! ## The main loop -/

theorem PassKind.sent_le_one (kind : PassKind) (writeOk : Bool) : kind.sent writeOk ≤ 1 := by
  rw [PassKind.sent]
  split
  next => exact le_rfl
  next => exact Nat.zero_le 1

/-- What holds when the loop ends: it has sent the cells whose writes succeeded, and it goes on
after a failed write unless it has sent the maximum. -/
structure LoopDone (max nFlushed total : Nat) (failed : Bool) (passes : List (PassKind × Bool))
    (w' : MuxWorld) : Prop where
  sum : total = nFlushed + (cellWrites passes).count true
  bounded : nFlushed ≤ max → total ≤ max
  booked : Booked w'
  counts : Counts w' (passes.foldl failedAfter failed)
  ended : passes.foldl failedAfter failed = true → max ≤ total
  below : ∀ front pass back, passes = front ++ pass :: back →
    nFlushed + (cellWrites front).count true < max

theorem LoopDone.nil {w : MuxWorld} (booked : Booked w) (counts : Counts w failed)
    (ended : failed = true → max ≤ nFlushed) : LoopDone max nFlushed nFlushed failed [] w := by
  constructor
  · rfl
  · exact fun below => below
  · exact booked
  · exact counts
  · exact ended
  · intro front pass back split
    cases front with
    | nil => cases split
    | cons => cases split

theorem LoopDone.cons {pass : PassKind × Bool}
    (done : LoopDone max (nFlushed + pass.1.sent pass.2) total (failedAfter failed pass) passes w')
    (below : nFlushed < max) : LoopDone max nFlushed total failed (pass :: passes) w' := by
  have one := pass.1.sent_le_one pass.2
  constructor
  · rw [done.sum, count_cellWrites_cons]
    omega
  · intro _
    exact done.bounded (by omega)
  · exact done.booked
  · exact done.counts
  · exact done.ended
  · intro front other back split
    cases front with
    | nil =>
      have none_ : (cellWrites []).count true = 0 := rfl
      rw [none_]
      exact below
    | cons first front =>
      rw [List.cons_append] at split
      obtain ⟨rfl, rest⟩ := List.cons.inj split
      have later := done.below front other back rest
      rw [count_cellWrites_cons]
      omega

theorem flushPasses_next {max nFlushed sent : Nat} {writeOk : Bool} {w w' : MuxWorld}
    {kind : PassKind} {notes : List FlushNote} (writes : List Bool) (below : nFlushed < max)
    (known : passKind w = some kind)
    (passed : flushPass pow w writeOk = some (some sent, w', notes)) :
    flushPasses pow max (writeOk :: writes) nFlushed w
      = (kind, writeOk) :: flushPasses pow max writes (nFlushed + sent) w' := by
  rw [flushPasses.eq_def]
  dsimp only
  rw [if_neg (Nat.not_le_of_lt below)]
  simp only [known, passed]

theorem flushPasses_last (w : MuxWorld) (writes : List Bool)
    (last : nFlushed ≥ max ∨ passKind w = none) : flushPasses pow max writes nFlushed w = [] := by
  rw [flushPasses.eq_def]
  dsimp only
  split
  next => rfl
  next below =>
    have none_ := last.resolve_left below
    cases writes with
    | nil => rfl
    | cons writeOk writes => simp only [none_]

/-- With a result for each pass the loop ends. -/
theorem flushLoop_done (max nFlushed : Nat) (writes : List Bool) {w : MuxWorld}
    (notes : List FlushNote) (ready : Ready w) (counts : Counts w failed)
    (long : work w < writes.length) :
    ∃ total w' notes', flushLoop pow max writes nFlushed w notes = some (total, w', notes')
      ∧ LoopDone max nFlushed total failed (flushPasses pow max writes nFlushed w) w' := by
  induction writes generalizing nFlushed w failed notes with
  | nil => exact absurd long (Nat.not_lt_zero _)
  | cons writeOk writes ih =>
    rw [flushLoop]
    by_cases full : nFlushed ≥ max
    · rw [if_pos full, flushPasses_last pow w _ (.inl full)]
      exact ⟨nFlushed, w, notes, rfl, LoopDone.nil ready.booked counts fun _ => full⟩
    · rw [if_neg full]
      rcases flushPass_step pow ready counts writeOk with
        ⟨kind, passed, even⟩ | ⟨kind, w₁, new, known, passed, done⟩
      · rw [flushPasses_last pow w _ (.inr kind), passed]
        refine ⟨nFlushed, w, notes ++ [], rfl, LoopDone.nil ready.booked counts ?_⟩
        intro failed_
        rw [even] at failed_
        cases failed_
      · have less := done.less
        rw [List.length_cons] at long
        obtain ⟨total, w', notes', ended, rest⟩ :=
          ih (nFlushed + kind.sent writeOk) (notes ++ new) done.ready done.counts (by omega)
        refine ⟨total, w', notes', ?_, ?_⟩
        · rw [passed]
          exact ended
        · rw [flushPasses_next pow writes (Nat.lt_of_not_le full) known passed]
          exact rest.cons (Nat.lt_of_not_le full)

theorem foldl_failedAfter (failed : passes.foldl failedAfter false = true) :
    ∃ front back, passes = front ++ (.cell, false) :: back ∧ ∀ pass ∈ back, pass.1 = .destroy := by
  induction passes using List.reverseRecOn with
  | nil => cases failed
  | append_singleton passes pass ih =>
    rw [List.foldl_append, List.foldl_cons, List.foldl_nil] at failed
    obtain ⟨kind, writeOk⟩ := pass
    cases kind with
    | destroy =>
      obtain ⟨front, back, rfl, destroys⟩ := ih failed
      refine ⟨front, back ++ [(.destroy, writeOk)], by simp, ?_⟩
      intro pass member
      rcases List.mem_append.mp member with earlier | last
      · exact destroys pass earlier
      · rw [List.mem_singleton.mp last]
    | cell =>
      cases writeOk with
      | false => exact ⟨passes, [], rfl, by simp⟩
      | true => cases failed
    | empty => cases failed

theorem LoopDone.not_failed (done : LoopDone max 0 total false passes w')
    (closing : (cellWrites passes).Pairwise fun before after => before = false → after = false) :
    passes.foldl failedAfter false = false := by
  by_contra failed
  rw [Bool.not_eq_false] at failed
  obtain ⟨front, back, split, -⟩ := foldl_failedAfter failed
  have reached := done.ended failed
  have below := done.below front (.cell, false) back split
  have writes : cellWrites passes = cellWrites front ++ false :: cellWrites back := by
    rw [split]
    simp [cellWrites]
  have none_ : (cellWrites back).count true = 0 := by
    rw [writes] at closing
    have later := (List.pairwise_cons.mp (List.pairwise_append.mp closing).2.1).1
    rw [List.count_eq_zero]
    intro succeeded
    exact Bool.noConfusion (later true succeeded rfl)
  have sum := done.sum
  rw [writes, List.count_append, List.count_cons_of_ne (by decide), none_] at sum
  omega

end

end

/-- A flush ends whatever becomes of its writes, and returns the number of those that succeed, at
most the maximum. Each circuit has then as many cells as the mux has recorded for it, exactly if the
last pass about a circuit did not fail to write its cell. This is so in particular if no write
succeeds after one that failed. -/
theorem channelFlush_inStep {w : MuxWorld} (notes : List FlushNote) (max : Nat)
    (writes : List Bool) (ready : Ready w) (inStep : InStep w) (long : work w < writes.length) :
    ∃ total w' notes',
      channelFlushFromFirstActiveCircuit pow w notes max writes = some (total, w', notes')
      ∧ total = (cellWrites (flushPasses pow max writes 0 w)).count true ∧ total ≤ max
      ∧ (InStep w' ↔ lastCellFailed (flushPasses pow max writes 0 w) = false)
      ∧ ((cellWrites (flushPasses pow max writes 0 w)).Pairwise
          (fun before after => before = false → after = false) → InStep w') := by
  have counts : Counts w false := (inStep_iff ready.booked).mp inStep
  obtain ⟨total, w', notes', ended, done⟩ := flushLoop_done pow max 0 writes notes ready counts long
  have exactly := done.counts.inStep_iff done.booked
  refine ⟨total, w', notes', ended, ?_, done.bounded (Nat.zero_le max), exactly, ?_⟩
  · rw [done.sum, Nat.zero_add]
  · intro closing
    exact exactly.mpr (done.not_failed closing)

/-! ## A circuit between two DESTROY cells -/

/-- Two DESTROY cells are queued beside a circuit with one cell. -/
def mixedQueues : List ChannelEvent :=
  [.call (.setPolicy true), .call (.attach 0 .outbound), .appendDestroy 90 1 true [],
    .appendDestroy 91 1 true []]

/-- The three facts that make a channel ready to flush can be checked when it was reached by calls. -/
theorem ready_of_runEvents {events : List ChannelEvent} {w : ChannelWorld}
    (result : runEvents wholePow sixCircuitsChannel events = some w)
    (checked : w.world.mux.policy.isSome ∧ w.world.mux.nCells.toNat = cellTotal w.world.entries
      ∧ ∀ e ∈ w.world.entries, queueLength w.world e = e.muxinfo.cellCount.toNat) :
    Ready w.world ∧ InStep w.world := by
  obtain ⟨ts, run⟩ := run_of_runEvents wholePow result
  have booked := (orderly_of_run wholePow sixCircuits_fresh rfl run).booked
  exact ⟨⟨booked, checked.1, checked.2.1⟩, (inStep_iff booked).mpr checked.2.2⟩

theorem channelFlush_inStep_mixed :
    ∃ w total w' notes', runEvents wholePow sixCircuitsChannel mixedQueues = some w
      ∧ Ready w.world ∧ InStep w.world
      ∧ channelFlushFromFirstActiveCircuit wholePow w.world w.notes 3
          [true, true, true, true, true] = some (total, w', notes')
      ∧ total ≤ 3 ∧ InStep w' := by
  have ends : (runEvents wholePow sixCircuitsChannel mixedQueues).any fun w =>
      decide ((w.world.mux.policy.isSome
          ∧ w.world.mux.nCells.toNat = cellTotal w.world.entries
          ∧ ∀ e ∈ w.world.entries, queueLength w.world e = e.muxinfo.cellCount.toNat)
        ∧ work w.world < 5
        ∧ (cellWrites (flushPasses wholePow 3 [true, true, true, true, true] 0 w.world)).Pairwise
          (fun before after => before = false → after = false)) := by
    decide +kernel
  obtain ⟨w, result, checked⟩ := (Option.any_eq_true _ _).mp ends
  obtain ⟨facts, less, closing⟩ := of_decide_eq_true checked
  obtain ⟨ready, inStep⟩ := ready_of_runEvents result facts
  obtain ⟨total, w', notes', flushed, -, bounded, -, kept⟩ := channelFlush_inStep wholePow w.notes 3
    [true, true, true, true, true] ready inStep less
  exact ⟨w, total, w', notes', result, ready, inStep, flushed, bounded, kept closing⟩

/-- The cell of the circuit fails between two DESTROY cells, the second of which is the last cell of
the flush: the mux still counts a cell that is gone. -/
theorem channelFlush_behind :
    ¬ ∀ (w : MuxWorld) (notes : List FlushNote) (max : Nat) (writes : List Bool),
      Ready w → InStep w → work w < writes.length →
      ∃ total w' notes',
        channelFlushFromFirstActiveCircuit wholePow w notes max writes = some (total, w', notes')
        ∧ InStep w' := by
  intro all
  have ends : (runEvents wholePow sixCircuitsChannel mixedQueues).any fun w =>
      decide ((w.world.mux.policy.isSome
          ∧ w.world.mux.nCells.toNat = cellTotal w.world.entries
          ∧ ∀ e ∈ w.world.entries, queueLength w.world e = e.muxinfo.cellCount.toNat)
        ∧ work w.world < 5
        ∧ lastCellFailed (flushPasses wholePow 2 [true, false, true, true, true] 0 w.world)
          = true) := by
    decide +kernel
  obtain ⟨w, result, checked⟩ := (Option.any_eq_true _ _).mp ends
  obtain ⟨facts, less, failed⟩ := of_decide_eq_true checked
  obtain ⟨ready, inStep⟩ := ready_of_runEvents result facts
  obtain ⟨total, w', notes', flushed, kept⟩ := all w.world w.notes 2
    [true, false, true, true, true] ready inStep less
  have counts : Counts w.world false := (inStep_iff ready.booked).mp inStep
  obtain ⟨total', w'', notes'', flushed', done⟩ := flushLoop_done wholePow 2 0
    [true, false, true, true, true] w.notes ready counts less
  rw [channelFlushFromFirstActiveCircuit, flushed'] at flushed
  cases flushed
  have even := (done.counts.inStep_iff done.booked).mp kept
  rw [lastCellFailed, even] at failed
  cases failed

end RendezMix.Guarantees.FlushSteps
