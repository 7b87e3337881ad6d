import RendezMix.Guarantees.MuxCalls

/-!
# Bookkeeping of a mux

In every run, the counters and the queue of the policy agree with the table, and
no assertion fails. The step lemma also says when the queue stays a heap.
-/
namespace RendezMix.Guarantees.MuxBookkeeping

open Library Runs Source CircuitmuxEwma Circuitmux MuxSystem EwmaQueue MuxEntries MuxSchedule
open MuxCalls MuxAllCircuits

variable (pow : Rat → Rat → Rat)

structure Booked (w : MuxWorld) : Prop where
  sound : SoundEnvironment w.env w.chan
  kept : Kept w.chan w.env w.state
  ticks : 1 ≤ w.state.globals.ewmaTickLen
  scale : 0 < w.state.globals.ewmaScaleFactor

section

variable {w : MuxWorld} {ev : MuxEvent}

section

variable {env : Environment} {entries : List MapEntry}

theorem booked_of_fresh (fresh : Fresh w) : Booked w := by
  have alloc : w.state.mux = circuitmuxAlloc := fresh.alloc
  refine ⟨fresh.sound, ⟨?_, ?_, ?_⟩, fresh.ticks, fresh.scale⟩
  · rw [alloc]
    constructor
    · exact List.nodup_nil
    · simp [circuitmuxAlloc]
    · simp [circuitmuxAlloc]
    · simp [circuitmuxAlloc]
  · rw [alloc]
    exact ⟨rfl, rfl, rfl⟩
  · rw [alloc]
    exact fun e inside => absurd inside (by simp [circuitmuxAlloc])

/-- The state and the entry in which a call takes a single circuit out of the queue. -/
def removal (w : MuxWorld) : MuxEvent → Option (MuxState × MapEntry)
  | .attach circ direction => do
      let (chan, cellCount, circId) ← sideOf (w.env.circuit circ) direction
      let e ← htFind w.mux (← chan) circId
      if e.muxinfo.cellCount > 0 ∧ cellCount = 0 then some (w.state, e) else none
  | .detach circ => do
      let e ← (detachSearch w.mux (w.env.circuit circ)).1
      if e.muxinfo.cellCount > 0 then some (w.state, e) else none
  | .setNumCells circ nCells => do
      let e ← (← circuitmuxFindMapEntry w.env w.mux circ)
      if e.muxinfo.cellCount > 0 ∧ nCells = 0 then some (w.state, e) else none
  | .notifyXmitCells circ nCells => do
      let e ← (← circuitmuxFindMapEntry w.env w.mux circ)
      let s ← noteXmit pow w.state e nCells
      if e.muxinfo.cellCount = nCells then some (s, e) else none
  | _ => none

/-- The circuit that a call takes out of the queue, if any, fits: what takes its place
is not to be moved up. -/
def Sifted (w : MuxWorld) (ev : MuxEvent) : Prop :=
  ∀ s e, removal pow w ev = some (s, e) → Fits s e

/-- A call that keeps to the protocol returns and keeps the books. -/
theorem stateAfter_kept (booked : Booked w) (allowed : Allowed w ev) :
    ∃ s', stateAfter pow w ev = some s' ∧ Kept w.chan (envAfter w ev) s'
      ∧ 1 ≤ s'.globals.ewmaTickLen ∧ 0 < s'.globals.ewmaScaleFactor
      ∧ (Positive pow → Sifted pow w ev → ServedMux w.state → ServedMux s') := by
  obtain ⟨sound, kept, ticks, scale⟩ := booked
  cases ev with
  | attach circ direction =>
    obtain ⟨installed, circId, owns, nonzero⟩ := allowed
    obtain ⟨pol, policy⟩ := Option.isSome_iff_exists.mp installed
    obtain ⟨cellCount, s', side, result, kept', globals, served'⟩ :=
      circuitmuxAttachCircuit_kept pow sound kept policy owns nonzero
    refine ⟨s', result, kept', globals ▸ ticks, globals ▸ scale, ?_⟩
    intro _ sifted served
    apply served' served
    intro e there busy zero
    apply sifted w.state e
    have there' : htFind w.mux w.chan circId = some e := there
    simp [removal, side, there', busy, zero]
  | detach circ =>
    obtain ⟨able, direction, circId, owns⟩ := allowed
    obtain ⟨s', result, kept', globals, served'⟩ :=
      circuitmuxDetachCircuit_kept sound kept able owns
    refine ⟨s', result, kept', globals ▸ ticks, globals ▸ scale, ?_⟩
    intro _ sifted served
    apply served' served
    intro e there busy
    apply sifted w.state e
    have there' : (detachSearch w.mux (w.env.circuit circ)).1 = some e := there
    simp [removal, there', busy]
  | setNumCells circ nCells =>
    obtain ⟨installed, e, found⟩ := allowed
    obtain ⟨pol, policy⟩ := Option.isSome_iff_exists.mp installed
    obtain ⟨s', result, kept', globals, served'⟩ :=
      circuitmuxSetNumCells_kept pow sound kept policy nCells found
    refine ⟨s', result, kept', globals ▸ ticks, globals ▸ scale, ?_⟩
    intro _ sifted served
    apply served' served
    intro busy zero
    apply sifted w.state e
    simp [removal, found, busy, zero]
  | notifyXmitCells circ nCells =>
    by_cases none_ : nCells = 0
    · refine ⟨w.state, if_pos none_, kept, ticks, scale, fun _ _ served => served⟩
    · obtain ⟨e, pol, found, enough, policy, pick⟩ := allowed.resolve_left none_
      obtain ⟨s', result, kept', factor, tickLen, served'⟩ :=
        circuitmuxNotifyXmitCells_kept pow sound kept policy none_ enough found pick
      refine ⟨s', result, kept', tickLen ▸ ticks, factor ▸ scale, ?_⟩
      intro positive sifted served
      apply served' positive scale served
      intro t xmit last
      apply sifted t e
      simp [removal, found, xmit, last]
  | detachAllCircuits =>
    obtain ⟨s', out, result, kept', globals, served'⟩ :=
      circuitmuxDetachAllCircuits_kept sound kept allowed
    refine ⟨s', ?_, kept', globals ▸ ticks, globals ▸ scale, fun _ _ _ => served'⟩
    simp [stateAfter, result]
  | setPolicy ewma =>
    obtain ⟨s', result, kept', globals, served'⟩ := circuitmuxSetPolicy_kept pow sound kept ewma
    exact ⟨s', result, kept', globals ▸ ticks, globals ▸ scale, fun _ _ served => served' served⟩
  | rehash entries =>
    have perm : w.state.mux.chanidCircidMap.Perm entries := List.Perm.symm allowed
    refine ⟨_, rfl, ⟨kept.mapped.of_perm perm, ?_, ?_⟩, ticks, scale, fun _ _ served => served⟩
    · have tallied := kept.tallied.of_perm perm
      exact ⟨tallied.circuits, tallied.active, tallied.cells⟩
    · have policy := kept.policy
      cases installed : w.state.mux.policy with
      | none =>
        rw [installed] at policy
        exact fun e inside => policy e (perm.mem_iff.mpr inside)
      | some pol =>
        rw [installed] at policy
        exact Scheduled.of_perm policy perm
  | clock now => exact ⟨_, rfl, ⟨kept.mapped, kept.tallied, kept.policy⟩, ticks, scale, fun _ _ h => h⟩
  | setOptions ewmaTickLen ewmaScaleFactor =>
    obtain ⟨low, -, factor⟩ := allowed
    exact ⟨_, rfl, ⟨kept.mapped, kept.tallied, kept.policy⟩, low, factor, fun _ _ h => h⟩
  | environment env =>
    obtain ⟨sound', same⟩ := allowed
    have owned : ∀ e ∈ w.state.mux.chanidCircidMap, ∃ circ,
        w.env.circidMap e.chanId e.circId = some circ
          ∧ env.circidMap e.chanId e.circId = some circ
          ∧ Owns env circ e.muxinfo.direction w.chan e.circId := by
      intro e inside
      obtain ⟨circ, -, known, -⟩ := lookup_owner sound kept.mapped inside
      have owns := same e inside circ known
      rw [kept.mapped.chanId e inside] at known owns
      refine ⟨circ, ?_, ?_, owns⟩
      · rw [kept.mapped.chanId e inside]
        exact known
      · rw [kept.mapped.chanId e inside]
        exact sound'.registered circ _ e.circId owns (kept.mapped.circId e inside)
    refine ⟨_, rfl, ⟨?_, kept.tallied, ?_⟩, ticks, scale, fun _ _ served => served⟩
    · constructor
      · exact kept.mapped.distinct
      · exact kept.mapped.chanId
      · exact kept.mapped.circId
      · intro e inside
        obtain ⟨circ, -, -, owns⟩ := owned e inside
        exact ⟨circ, owns⟩
    · have policy := kept.policy
      cases installed : w.state.mux.policy with
      | none =>
        rw [installed] at policy
        exact policy
      | some pol =>
        rw [installed] at policy
        refine ⟨policy.queued, ?_, policy.distinct, policy.idle⟩
        intro e inside
        obtain ⟨r, data, below, known⟩ := policy.given e inside
        obtain ⟨circ, before, after, -⟩ := owned e inside
        rw [known] at before
        refine ⟨r, data, below, ?_⟩
        rw [before]
        exact after

theorem sound_after (sound : SoundEnvironment w.env w.chan) (allowed : Allowed w ev) :
    SoundEnvironment (envAfter w ev) w.chan := by
  cases ev with
  | environment env => exact allowed.1
  | _ => exact sound

theorem muxStep_booked (booked : Booked w) (allowed : Allowed w ev) :
    ∃ w', muxStep pow w ev = some w' ∧ Booked w'
      ∧ (Positive pow → Sifted pow w ev → ServedMux w.state → ServedMux w'.state) := by
  obtain ⟨s', result, kept, ticks, scale, served⟩ := stateAfter_kept pow booked allowed
  refine ⟨⟨w.chan, envAfter w ev, s'⟩, ?_, ?_, served⟩
  · simp [muxStep, result]
  · exact ⟨sound_after booked.sound allowed, kept, ticks, scale⟩

theorem booked_of_step {w w' : MuxWorld} (taken : MuxStep pow w ev w') (booked : Booked w) :
    Booked w' := by
  obtain ⟨allowed, result⟩ := taken
  obtain ⟨w₁, result₁, booked₁, -⟩ := muxStep_booked pow booked allowed
  rw [result] at result₁
  cases result₁
  exact booked₁

theorem booked_of_run {w₀ w : MuxWorld} {ts : List (Transition MuxWorld MuxEvent)}
    (fresh : Fresh w₀) (run : Run (MuxStep pow) w₀ ts w) : Booked w :=
  run.invariant (booked_of_fresh fresh) fun _ _ _ booked taken => booked_of_step pow taken booked

/-! ## What the books say -/

theorem mapped_length_lt {chan : UInt64} (mapped : Mapped chan env entries) :
    entries.length < 2 ^ 32 := by
  have ids : (entries.map fun e => e.circId.toNat).Nodup := by
    apply List.Nodup.map_on _ mapped.distinct.of_map
    intro x inX y inY same
    apply List.inj_on_of_nodup_map mapped.distinct inX inY
    rw [MapEntry.key, MapEntry.key, mapped.chanId x inX, mapped.chanId y inY,
      UInt32.toNat_inj.mp same]
  have withZero : (0 :: entries.map fun e => e.circId.toNat).Nodup := by
    refine List.nodup_cons.mpr ⟨?_, ids⟩
    intro member
    obtain ⟨e, inside, zero⟩ := List.mem_map.mp member
    exact mapped.circId e inside (UInt32.toNat_inj.mp zero)
  have bounded : 0 :: (entries.map fun e => e.circId.toNat) ⊆ List.range (2 ^ 32) := by
    intro n member
    rw [List.mem_range]
    rcases List.mem_cons.mp member with rfl | inRest
    · decide
    · obtain ⟨e, -, rfl⟩ := List.mem_map.mp inRest
      exact e.circId.toNat_lt
  have count := (List.subperm_of_subset withZero bounded).length_le
  rw [List.length_cons, List.length_map, List.length_range] at count
  exact count

/-- The counters and the queue agree with the entries of the table. The counters are
32 bits wide, which only the number of cells could exceed. -/
structure Bookkeeping (w : MuxWorld) : Prop where
  circuits : w.mux.nCircuits.toNat = w.entries.length
  active : w.mux.nActiveCircuits.toNat = (w.entries.filter isActive).length
  cells : w.mux.nCells.toNat
    = (w.entries.map fun e => e.muxinfo.cellCount.toNat).sum % 2 ^ 32
  queue : ∀ pol, w.mux.policy = some pol →
    (pol.activeCircuitPqueue.map some).Perm
      ((w.entries.filter isActive).map fun e => e.muxinfo.policyData)
  once : ∀ pol, w.mux.policy = some pol → pol.activeCircuitPqueue.Nodup
  ticks : ∀ pol, w.mux.policy = some pol → ∀ r ∈ pol.activeCircuitPqueue,
    w.state.mem.lastAdjustedTick r = pol.lastRecalibrated

theorem activeRefs_map_some {pol : EwmaPolicyData} {mem : EwmaMemory}
    (scheduled : Scheduled env pol mem entries) :
    (activeRefs entries).map some
      = (entries.filter isActive).map fun e => e.muxinfo.policyData := by
  have given := scheduled.given
  clear scheduled
  induction entries with
  | nil => rfl
  | cons e rest ih =>
    obtain ⟨r, data, -⟩ := given e (List.mem_cons_self ..)
    have tail := ih fun x inside => given x (List.mem_cons_of_mem e inside)
    by_cases busy : e.muxinfo.cellCount > 0
    · rw [activeRefs_active busy data, List.map_cons, tail, List.filter_cons_of_pos, List.map_cons,
        data]
      simp [isActive, busy]
    · rw [List.filter_cons_of_neg, ← tail, activeRefs_idle]
      · exact uint32_eq_zero_of_not_pos busy
      · simpa [isActive] using busy

theorem Booked.bookkeeping (booked : Booked w) : Bookkeeping w := by
  have few := mapped_length_lt booked.kept.mapped
  have tallied := booked.kept.tallied
  constructor
  · rw [MuxWorld.mux, tallied.circuits, entryCount]
    exact UInt32.toNat_ofNat_of_lt' few
  · have fewer : w.state.mux.chanidCircidMap.countP isActive < 2 ^ 32 :=
      lt_of_le_of_lt List.countP_le_length few
    rw [MuxWorld.mux, tallied.active, activeCount, ← List.countP_eq_length_filter]
    exact UInt32.toNat_ofNat_of_lt' fewer
  · rw [MuxWorld.mux, tallied.cells]
    exact UInt32.toNat_ofNat'
  · intro pol policy
    have scheduled := booked.kept.scheduled policy
    rw [MuxWorld.entries, ← activeRefs_map_some scheduled]
    exact scheduled.queued.perm.map some
  · intro pol policy
    exact (booked.kept.scheduled policy).queued.indexed.nodup
  · intro pol policy r inside
    have queued := (booked.kept.scheduled policy).queued
    exact queued.ticks r (queued.perm.mem_iff.mp inside)

end

end

/-- From a new mux on, whatever calls are made under the protocol: the counters and the
queue agree with the table, and no assertion fails in the next call. -/
theorem muxStep_bookkeeping {w₀ w : MuxWorld} {ts : List (Transition MuxWorld MuxEvent)}
    (fresh : Fresh w₀) (run : Run (MuxStep pow) w₀ ts w) :
    Bookkeeping w ∧ ∀ ev, Allowed w ev → ∃ w', muxStep pow w ev = some w' := by
  have booked := booked_of_run pow fresh run
  refine ⟨booked.bookkeeping, ?_⟩
  intro ev allowed
  obtain ⟨w', result, -⟩ := muxStep_booked pow booked allowed
  exact ⟨w', result⟩

/-! ## Six circuits -/

/-- The power function for exponents that are whole. -/
def wholePow (b e : Rat) : Rat := b ^ e.num

/-- The cells that are waiting on each of six circuits. -/
def waiting : List UInt32 := [1, 10, 3, 11, 12, 4]

def sixCircuitsEnv : Environment :=
  { circuit := fun c =>
      ⟨.originCircuit, if c < 6 then some 1 else none, UInt32.ofNat (c + 1), waiting.getD c 0,
        none, 0, 0⟩
    channelExists := fun chanId => chanId = 1
    circidMap := fun _ circId => if 0 < circId.toNat then some (circId.toNat - 1) else none }

/-- A new channel that six circuits leave on. -/
def sixCircuits : MuxWorld :=
  ⟨1, sixCircuitsEnv, ⟨circuitmuxAlloc, ⟨fun _ => 0, fun _ => 0, fun _ => 0, fun _ => 0, 0⟩,
    ⟨0, 0, 0, 10, 1 / 10⟩⟩⟩

theorem sixCircuits_fresh : Fresh sixCircuits := by
  refine ⟨rfl, ⟨rfl, ?_, ?_⟩, by decide, by decide +kernel⟩
  · intro circ direction circId owns nonzero
    cases direction with
    | outbound =>
      obtain ⟨leaves, rfl⟩ := owns
      simp only [sixCircuits, sixCircuitsEnv] at leaves ⊢
      split at leaves
      · next small =>
        have bound : circ + 1 < 2 ^ 32 := lt_of_le_of_lt (Nat.succ_le_of_lt small) (by decide)
        have exact_ : (UInt32.ofNat (circ + 1)).toNat = circ + 1 :=
          UInt32.toNat_ofNat_of_lt' bound
        rw [exact_, if_pos (Nat.succ_pos circ)]
        rfl
      · cases leaves
    | inbound => exact absurd owns.1 (by simp [sixCircuits, sixCircuitsEnv])
  · intro circ isOr
    exact absurd isOr (by simp [sixCircuits, sixCircuitsEnv])

/-- The circuits are attached and send the cells that are waiting, then get more. -/
def sixCalls : List MuxEvent :=
  .setPolicy true
    :: (List.range 6).flatMap (fun c =>
      [.attach c .outbound, .notifyXmitCells c (waiting.getD c 0)])
    ++ (List.range 6).map fun c => .setNumCells c 100

theorem muxStep_bookkeeping_sixCircuits :
    ∃ w, runCalls wholePow (fun _ _ => true) sixCircuits sixCalls = some w
      ∧ Bookkeeping w ∧ ∀ ev, Allowed w ev → ∃ w', muxStep wholePow w ev = some w' := by
  have returns : (runCalls wholePow (fun _ _ => true) sixCircuits sixCalls).isSome := by
    decide +kernel
  obtain ⟨w, result⟩ := Option.isSome_iff_exists.mp returns
  obtain ⟨ts, run, -⟩ := run_of_runCalls wholePow result
  exact ⟨w, result, muxStep_bookkeeping wholePow sixCircuits_fresh run⟩

end RendezMix.Guarantees.MuxBookkeeping

/-!
# Serving the quietest circuit

The policy picks the head of its queue, which has the least count as long as the
queue is a heap. `smartlist_pqueue_remove` moves the last item into the hole and
then down only; where it would have to move up, a busier circuit may be picked
from then on.
-/
namespace RendezMix.Guarantees.MuxFairness

open Library.Runs Source CircuitmuxEwma Circuitmux MuxSystem EwmaQueue PqueueOrder MuxSchedule
open MuxCalls MuxBookkeeping

variable (pow : Rat → Rat → Rat)

/-- The count of a circuit in cells of the present tick. -/
def scaledCount (w : MuxWorld) (r : EwmaRef) : Rat :=
  let g := w.state.globals
  w.state.mem.cellCount r
    * getScaleFactor pow g (w.state.mem.lastAdjustedTick r) (cellEwmaGetTick g)

/-- The circuit picked is an active one, and no active one has a smaller count. -/
def ServesQuietest (w : MuxWorld) : Prop :=
  ∀ pol ∈ w.mux.policy, ∀ circ ∈ ewmaPickActiveCircuit pol w.state.mem,
    ∃ e ∈ w.entries, e.muxinfo.cellCount > 0
      ∧ w.env.circidMap e.chanId e.circId = some circ
      ∧ ∃ r ∈ e.muxinfo.policyData, ∀ e' ∈ w.entries, e'.muxinfo.cellCount > 0 →
          ∀ r' ∈ e'.muxinfo.policyData, scaledCount pow w r ≤ scaledCount pow w r'

instance (w : MuxWorld) : Decidable (ServesQuietest pow w) := by
  unfold ServesQuietest
  infer_instance

/-- All counts in the queue are of one tick, so that scaling keeps their order. -/
theorem scaledCount_le {w : MuxWorld} (booked : Booked w) (positive : Positive pow)
    {pol : EwmaPolicyData} (policy : w.state.mux.policy = some pol) {r r' : EwmaRef}
    (inside : r ∈ pol.activeCircuitPqueue) (inside' : r' ∈ pol.activeCircuitPqueue)
    (below : w.state.mem.cellCount r ≤ w.state.mem.cellCount r') :
    scaledCount pow w r ≤ scaledCount pow w r' := by
  have queued := (booked.kept.scheduled policy).queued
  have tick := queued.ticks r (queued.perm.mem_iff.mp inside)
  have tick' := queued.ticks r' (queued.perm.mem_iff.mp inside')
  simp only [scaledCount, tick, tick']
  have factor := positive w.state.globals.ewmaScaleFactor
    ((cellEwmaGetTick w.state.globals - pol.lastRecalibrated).toInt32.toInt : Int) booked.scale
  exact mul_le_mul_of_nonneg_right below factor.le

theorem servesQuietest_of_served {w : MuxWorld} (booked : Booked w) (positive : Positive pow)
    (served : ServedMux w.state) : ServesQuietest pow w := by
  intro pol policy circ pick
  obtain ⟨r, head, rfl⟩ := Option.map_eq_some_iff.mp pick
  have scheduled := booked.kept.scheduled policy
  have inQueue : ∀ x, x ∈ pol.activeCircuitPqueue ↔ x ∈ activeRefs w.state.mux.chanidCircidMap :=
    fun x => scheduled.queued.perm.mem_iff
  have first := List.mem_of_mem_head? head
  obtain ⟨e, member, busy, data⟩ := mem_activeRefs.mp ((inQueue r).mp first)
  obtain ⟨r₁, same, -, known⟩ := scheduled.given e member
  rw [data] at same
  cases same
  refine ⟨e, member, busy, known, r, data, ?_⟩
  intro e' member' busy' r' data'
  have second := (inQueue r').mpr (mem_activeRefs.mpr ⟨e', member', busy', data'⟩)
  exact scaledCount_le pow booked positive policy first second
    ((served pol policy).head_le head second)

/-- What holds between calls as long as the queue is a heap. -/
def Orderly (w : MuxWorld) : Prop := Booked w ∧ ServedMux w.state

/-- The circuit picked is the quietest one in every state of a run in which no circuit is
taken out of the queue in a way that misplaces another one. -/
theorem ewmaPickActiveCircuit_quietest (positive : Positive pow) {w₀ w : MuxWorld}
    {ts : List (Transition MuxWorld MuxEvent)} (fresh : Fresh w₀)
    (run : Run (MuxStep pow) w₀ ts w) (sifted : ∀ x ∈ ts, Sifted pow x.pre x.input) :
    ServesQuietest pow w := by
  have start : Orderly w₀ := by
    refine ⟨booked_of_fresh fresh, ?_⟩
    intro pol policy
    have alloc : w₀.state.mux = circuitmuxAlloc := fresh.alloc
    rw [alloc] at policy
    cases policy
  have reached : Orderly w := by
    apply run.invariant_of_steps sifted start
    rintro w ev w' ⟨booked, served⟩ ⟨allowed, result⟩ fits
    obtain ⟨w₁, result₁, booked₁, served₁⟩ := muxStep_booked pow booked allowed
    rw [result] at result₁
    cases result₁
    exact ⟨booked₁, served₁ positive fits served⟩
  exact servesQuietest_of_served pow reached.1 positive reached.2

/-! ## Six circuits -/

theorem wholePow_positive : Positive wholePow := fun _ _ base => zpow_pos base _

/-- The test of `Sifted`. -/
def siftedCall (w : MuxWorld) (ev : MuxEvent) : Bool :=
  match removal pow w ev with
  | none => true
  | some (s, e) =>
      match s.mux.policy, e.muxinfo.policyData with
      | some pol, some r => !decide (Misplaces s.mem.cellCount (pqueueOf pol s.mem) r)
      | _, _ => true

theorem siftedCall_sound {w : MuxWorld} {ev : MuxEvent} (checked : siftedCall pow w ev = true) :
    Sifted pow w ev := by
  intro s e removed pol r policy data
  simpa [siftedCall, removed, policy, data] using checked

theorem ewmaPickActiveCircuit_quietest_sixCircuits :
    ∃ w, runCalls wholePow (siftedCall wholePow) sixCircuits sixCalls = some w
      ∧ ServesQuietest wholePow w := by
  have returns : (runCalls wholePow (siftedCall wholePow) sixCircuits sixCalls).isSome := by
    decide +kernel
  obtain ⟨w, result⟩ := Option.isSome_iff_exists.mp returns
  obtain ⟨ts, run, checked⟩ := run_of_runCalls wholePow result
  exact ⟨w, result, ewmaPickActiveCircuit_quietest wholePow wholePow_positive sixCircuits_fresh run
    fun x inside => siftedCall_sound wholePow (checked x inside)⟩

/-- The queue holds the counts 1, 10, 3, 11, 12 and 4 when the circuit with count 11
closes. The circuit with count 4 takes its place, below the one with count 10, which
is picked in its stead once the first two circuits have sent more. -/
def closingCalls : List MuxEvent :=
  sixCalls ++ [.detach 3, .notifyXmitCells 0 49, .notifyXmitCells 2 50]

theorem ewmaPickActiveCircuit_busier :
    ∃ w ts, Fresh sixCircuits ∧ Run (MuxStep wholePow) sixCircuits ts w
      ∧ ¬ ServesQuietest wholePow w := by
  have ends : (runCalls wholePow (fun _ _ => true) sixCircuits closingCalls).any
      fun w => !decide (ServesQuietest wholePow w) := by decide +kernel
  obtain ⟨w, result, busier⟩ := (Option.any_eq_true _ _).mp ends
  obtain ⟨ts, run, -⟩ := run_of_runCalls wholePow result
  exact ⟨w, ts, sixCircuits_fresh, run, by simpa using busier⟩

end RendezMix.Guarantees.MuxFairness
