import RendezMix.Guarantees.MuxFrames
import RendezMix.Guarantees.MuxBookkeeping

/-!
# DESTROY cells of a channel

A mux with cells of both kinds always chooses the other kind than it chose last.
Its counter of queued DESTROY cells is decremented where one is sent, but not
where one is lost in a failed write.
-/
namespace RendezMix.Guarantees.DestroyAccounting

open Library.Runs Source CircuitmuxEwma Circuitmux MuxSystem ChannelFlush MuxEntries MuxCalls
open MuxWorld
open MuxFrames MuxBookkeeping

variable (pow : Rat → Rat → Rat)

/-- What was chosen, and whether there was a choice between both kinds. -/
def choiceOf : FlushNote → Option (Bool × Bool)
  | .chose destroy both => some (destroy, both)
  | .destroyLost => none

def choices (notes : List FlushNote) : List (Bool × Bool) := notes.filterMap choiceOf

/-- A choice made with cells of both kinds pending differs from the choice before it. -/
def Alternates (notes : List FlushNote) : Prop :=
  (choices notes).IsChain fun before now => now.2 = true → now.1 ≠ before.1

/-- The counter equals the length of the queue. -/
def Counted (mux : CircuitMux) : Prop := mux.destroyCtr = mux.destroyCellQueue.length

/-- The counter is ahead of the queue by the cells lost, and the flag is the last choice. -/
structure Accounted (mux : CircuitMux) (notes : List FlushNote) : Prop where
  counted : mux.destroyCtr = mux.destroyCellQueue.length + notes.count .destroyLost
  last : ∀ choice ∈ (choices notes).getLast?, mux.lastCellWasDestroy = choice.1
  alternates : Alternates notes

theorem Accounted.same {mux mux' : CircuitMux} {notes : List FlushNote}
    (accounted : Accounted mux notes) (same : destroys mux' = destroys mux) :
    Accounted mux' notes := by
  simp only [destroys, Prod.mk.injEq] at same
  obtain ⟨queue, counter, flag⟩ := same
  constructor
  · rw [queue, counter]
    exact accounted.counted
  · rw [flag]
    exact accounted.last
  · exact accounted.alternates

theorem Accounted.choose {mux : CircuitMux} {notes : List FlushNote} {destroy both : Bool}
    (accounted : Accounted mux notes) (other : both = true → mux.lastCellWasDestroy ≠ destroy) :
    Accounted { mux with lastCellWasDestroy := destroy } (notes ++ [.chose destroy both]) := by
  have chosen : choices (notes ++ [.chose destroy both]) = choices notes ++ [(destroy, both)] := by
    simp [choices, choiceOf]
  constructor
  · rw [accounted.counted]
    simp
  · rw [chosen]
    simp
  · rw [Alternates, chosen]
    apply accounted.alternates.append (List.IsChain.singleton _)
    intro before inside now isLast
    cases isLast
    intro pending same
    apply other pending
    rw [accounted.last before inside]
    exact same.symm

/-- A DESTROY cell leaves the queue, and its counter follows or the cell is lost. -/
theorem Accounted.pop {mux mux' : CircuitMux} {notes : List FlushNote} {dcell : DestroyCell}
    {rest : List DestroyCell} {lost : List FlushNote} (accounted : Accounted mux notes)
    (full : mux.destroyCellQueue = dcell :: rest) (queue : mux'.destroyCellQueue = rest)
    (counter : lost = [] ∧ mux'.destroyCtr = mux.destroyCtr - 1
      ∨ lost = [.destroyLost] ∧ mux'.destroyCtr = mux.destroyCtr)
    (flag : mux'.lastCellWasDestroy = mux.lastCellWasDestroy) : Accounted mux' (notes ++ lost) := by
  have counted := accounted.counted
  rw [full, List.length_cons] at counted
  have noChoice : choices (notes ++ lost) = choices notes := by
    rcases counter with ⟨rfl, -⟩ | ⟨rfl, -⟩
    · rw [List.append_nil]
    · simp [choices, choiceOf]
  constructor
  · rcases counter with ⟨rfl, counter⟩ | ⟨rfl, counter⟩
    · rw [queue, counter, counted, List.append_nil]
      omega
    · rw [queue, counter, counted, List.count_append, List.count_singleton_self]
      omega
  · rw [noChoice, flag]
    exact accounted.last
  · rw [Alternates, noChoice]
    exact accounted.alternates

/-! ## The books of the mux under a flush -/

theorem booked_withMux {w : MuxWorld} (booked : Booked w) (mux : CircuitMux)
    (circuits : mux.nCircuits = w.mux.nCircuits)
    (active : mux.nActiveCircuits = w.mux.nActiveCircuits) (cells : mux.nCells = w.mux.nCells)
    (entries : mux.chanidCircidMap = w.mux.chanidCircidMap) (policy : mux.policy = w.mux.policy) :
    Booked (withState w { w.state with mux := mux }) := by
  have kept := booked.kept
  have tallied := kept.tallied
  refine ⟨booked.sound, ⟨?_, ?_, ?_⟩, booked.ticks, booked.scale⟩
  · simp only [withState, entries]
    exact kept.mapped
  · simp only [withState, entries]
    exact ⟨circuits.trans tallied.circuits, active.trans tallied.active, cells.trans tallied.cells⟩
  · simp only [withState, entries, policy]
    exact kept.policy

theorem owns_withCells {w : MuxWorld} {circ other : CircRef} {direction side : CellDirection}
    {n circId : UInt32} {chanId : UInt64} :
    Owns (withCells w circ direction n).env other side chanId circId
      ↔ Owns w.env other side chanId circId := by
  by_cases same : other = circ
  · subst same
    cases direction <;> cases side <;> simp [Owns, withCells]
  · cases side <;> simp [Owns, withCells, Function.update_of_ne same]

theorem booked_withCells {w : MuxWorld} (booked : Booked w) (circ : CircRef)
    (direction : CellDirection) (n : UInt32) : Booked (withCells w circ direction n) := by
  have kept := booked.kept
  have sound : SoundEnvironment (withCells w circ direction n).env w.chan := by
    constructor
    · exact booked.sound.channel
    · intro other side circId owns nonzero
      exact booked.sound.registered other side circId (owns_withCells.mp owns) nonzero
    · intro other isOr comes leaves
      have arrives : Owns (withCells w circ direction n).env other .inbound w.chan _ :=
        ⟨isOr, comes, rfl⟩
      have departs : Owns (withCells w circ direction n).env other .outbound w.chan _ :=
        ⟨leaves, rfl⟩
      have before := owns_withCells.mp arrives
      exact booked.sound.onward other before.1 before.2.1 (owns_withCells.mp departs).1
  refine ⟨sound, ⟨?_, kept.tallied, ?_⟩, booked.ticks, booked.scale⟩
  · refine ⟨kept.mapped.distinct, kept.mapped.chanId, kept.mapped.circId, ?_⟩
    intro e inside
    obtain ⟨owner, owns⟩ := kept.mapped.owned e inside
    exact ⟨owner, owns_withCells.mpr owns⟩
  · have policy := kept.policy
    change PolicyKept _ w.state.mux.policy _ _
    cases installed : w.state.mux.policy with
    | none =>
      rw [installed] at policy
      exact policy
    | some pol =>
      rw [installed] at policy
      exact ⟨policy.queued, policy.given, policy.distinct, policy.idle⟩

theorem circuitmuxSetNumCells_allowed {w : MuxWorld} {circ : CircRef} {n : UInt32} {s' : MuxState}
    (result : circuitmuxSetNumCells pow w.env w.state circ n = some s') :
    Allowed w (.setNumCells circ n) := by
  simp only [circuitmuxSetNumCells, Option.bind_eq_bind, Option.bind_eq_some_iff] at result
  obtain ⟨found, search, e, there, pol, policy, -⟩ := result
  rw [there] at search
  exact ⟨Option.isSome_of_eq_some policy, e, search⟩

theorem circuitmuxSetNumCells_booked {w : MuxWorld} (booked : Booked w) {circ : CircRef}
    {n : UInt32} {s' : MuxState}
    (result : circuitmuxSetNumCells pow w.env w.state circ n = some s') :
    Booked (withState w s') := by
  have taken : MuxStep pow w (.setNumCells circ n) (withState w s') :=
    ⟨circuitmuxSetNumCells_allowed pow result, by simp [muxStep, stateAfter, result]; rfl⟩
  exact booked_of_step pow taken booked

/-- One cell is reported sent on the circuit that the policy picks. -/
theorem circuitmuxNotifyXmitCells_booked {w : MuxWorld} (booked : Booked w) {circ : CircRef}
    {pol : EwmaPolicyData} {s' : MuxState} (policy : w.mux.policy = some pol)
    (pick : ewmaPickActiveCircuit pol w.state.mem = some circ)
    (result : circuitmuxNotifyXmitCells pow w.env w.state circ 1 = some s') :
    Booked (withState w s') := by
  have allowed : Allowed w (.notifyXmitCells circ 1) := by
    have xmit := result
    rw [circuitmuxNotifyXmitCells, if_neg (by decide)] at xmit
    simp only [Option.bind_eq_bind, Option.bind_eq_some_iff] at xmit
    obtain ⟨found, search, e, there, mid, noted, -⟩ := xmit
    rw [there] at search
    simp only [noteXmit, Option.bind_eq_bind, Option.bind_eq_some_iff] at noted
    obtain ⟨_, enough, -⟩ := noted
    have covered : 1 ≤ e.muxinfo.cellCount := by
      by_contra less
      simp [torAssert, less] at enough
    exact .inr ⟨e, pol, search, covered, policy, pick⟩
  have taken : MuxStep pow w (.notifyXmitCells circ 1) (withState w s') :=
    ⟨allowed, by simp [muxStep, stateAfter, result]; rfl⟩
  exact booked_of_step pow taken booked

theorem pick_of_active {w : MuxWorld} (booked : Booked w) {pol : EwmaPolicyData}
    (policy : w.mux.policy = some pol) (active : w.mux.nActiveCircuits > 0) :
    ∃ circ, ewmaPickActiveCircuit pol w.state.mem = some circ := by
  have books := booked.bookkeeping
  have counted := books.active
  have queue := (books.queue pol policy).length_eq
  simp only [List.length_map] at queue
  have positive : 0 < w.mux.nActiveCircuits.toNat := UInt32.lt_iff_toNat_lt.mp active
  rw [counted, ← queue] at positive
  obtain ⟨r, rest, filled⟩ := List.exists_cons_of_length_pos positive
  exact ⟨w.state.mem.circ r, by simp [ewmaPickActiveCircuit, filled]⟩

theorem flushCircuit_booked {w w' : MuxWorld} (booked : Booked w) {circ : CircRef}
    {pol : EwmaPolicyData} {writeOk : Bool} {pass : Pass} (policy : w.mux.policy = some pol)
    (pick : ewmaPickActiveCircuit pol w.state.mem = some circ)
    (result : flushCircuit pow w circ writeOk = some (pass, w')) :
    Booked w' ∧ destroys w'.mux = destroys w.mux := by
  simp only [flushCircuit, Option.bind_eq_bind, Option.bind_eq_some_iff] at result
  obtain ⟨-, -, sent⟩ := result
  simp only [sendFrom] at sent
  split at sent
  · -- the circuit has no cells
    obtain ⟨s', changed, last⟩ := Option.bind_eq_some_iff.mp sent
    cases last
    exact ⟨circuitmuxSetNumCells_booked pow booked changed,
      circuitmuxSetNumCells_frame pow changed⟩
  · have popped := fun n => booked_withCells booked circ
      (directionOn w.chan (w.env.circuit circ)) n
    split at sent
    · obtain ⟨s₁, noted, more⟩ := Option.bind_eq_some_iff.mp sent
      obtain ⟨s₂, changed, last⟩ := Option.bind_eq_some_iff.mp more
      cases last
      have afterXmit := circuitmuxNotifyXmitCells_booked pow (popped _) policy pick noted
      have first := circuitmuxNotifyXmitCells_frame pow noted
      have second := circuitmuxSetNumCells_frame pow changed
      exact ⟨circuitmuxSetNumCells_booked pow afterXmit changed, second.trans first⟩
    · cases sent
      exact ⟨popped _, rfl⟩

/-! ## A flush -/

/-- The three ways in which the mux chooses. -/
theorem circuitmuxGetFirstActiveCircuit_cases {s s' : MuxState} {circ : Option CircRef}
    {destroyQueue : Bool}
    (result : circuitmuxGetFirstActiveCircuit s = some (circ, destroyQueue, s')) :
    ∃ pol, s.mux.policy = some pol
      ∧ ((destroyQueue = true ∧ (s.mux.lastCellWasDestroy = false ∨ s.mux.nActiveCircuits = 0)
          ∧ s' = { s with mux := { s.mux with lastCellWasDestroy := true } })
        ∨ (destroyQueue = false ∧ s.mux.nActiveCircuits > 0
          ∧ (s.mux.destroyCellQueue = [] ∨ s.mux.lastCellWasDestroy = true)
          ∧ circ = ewmaPickActiveCircuit pol s.mem
          ∧ s' = { s with mux := { s.mux with lastCellWasDestroy := false } })
        ∨ (destroyQueue = false ∧ circ = none ∧ s' = s)) := by
  simp only [circuitmuxGetFirstActiveCircuit, Option.bind_eq_bind, Option.bind_eq_some_iff]
    at result
  obtain ⟨pol, policy, chosen⟩ := result
  refine ⟨pol, policy, ?_⟩
  split at chosen
  · next first =>
    cases chosen
    refine .inl ⟨rfl, ?_, rfl⟩
    rcases first.2 with free | idle
    · exact .inl (by simpa using free)
    · exact .inr idle
  · next notFirst =>
    split at chosen
    · next active =>
      obtain ⟨-, -, last⟩ := Option.bind_eq_some_iff.mp chosen
      cases last
      refine .inr (.inl ⟨rfl, active, ?_, rfl, rfl⟩)
      by_cases empty : s.mux.destroyCellQueue = []
      · exact .inl empty
      · by_contra free
        apply notFirst
        simp only [not_or, Bool.not_eq_true] at free
        exact ⟨empty, .inl (by simp [free.2])⟩
    · obtain ⟨-, -, more⟩ := Option.bind_eq_some_iff.mp chosen
      obtain ⟨-, -, last⟩ := Option.bind_eq_some_iff.mp more
      cases last
      exact .inr (.inr ⟨rfl, rfl, rfl⟩)

/-- What holds of the mux and of what was noted before and after each pass. -/
structure Orderly (w : MuxWorld) (notes : List FlushNote) : Prop where
  booked : Booked w
  accounted : Accounted w.mux notes

theorem flushPass_orderly {w w' : MuxWorld} {notes new : List FlushNote} {writeOk : Bool}
    {pass : Pass} (orderly : Orderly w notes)
    (result : flushPass pow w writeOk = some (pass, w', new)) : Orderly w' (notes ++ new) := by
  obtain ⟨booked, accounted⟩ := orderly
  simp only [flushPass, Option.bind_eq_bind, Option.bind_eq_some_iff] at result
  obtain ⟨⟨circ, destroyQueue, s'⟩, chosen, sent⟩ := result
  obtain ⟨pol, policy, first | second | third⟩ := circuitmuxGetFirstActiveCircuit_cases chosen
  · -- a DESTROY cell is chosen
    obtain ⟨rfl, free, rfl⟩ := first
    have booked₁ := booked_withMux booked { w.mux with lastCellWasDestroy := true }
      rfl rfl rfl rfl rfl
    have accounted₁ : Accounted { w.mux with lastCellWasDestroy := true }
        (notes ++ [.chose true (bothPending w.mux)]) := by
      apply accounted.choose
      intro both same
      simp only [bothPending, Bool.and_eq_true, decide_eq_true_eq] at both
      rcases free with unset | idle
      · have unset' : w.mux.lastCellWasDestroy = false := unset
        rw [unset'] at same
        cases same
      · have idle' : w.mux.nActiveCircuits = 0 := idle
        rw [idle'] at both
        exact absurd both.2 (by decide)
    simp only [if_true, Option.bind_eq_some_iff] at sent
    obtain ⟨⟨pass₁, w₁, lost⟩, popped, last⟩ := sent
    cases last
    have split_ : notes ++ .chose true (bothPending w.mux) :: lost
        = (notes ++ [.chose true (bothPending w.mux)]) ++ lost := by simp
    rw [split_]
    unfold flushDestroy at popped
    split at popped
    · cases popped
    · next dcell rest full =>
      split at popped
      · cases popped
        exact ⟨booked_withMux booked₁ _ rfl rfl rfl rfl rfl,
          accounted₁.pop full rfl (.inl ⟨rfl, rfl⟩) rfl⟩
      · cases popped
        exact ⟨booked_withMux booked₁ _ rfl rfl rfl rfl rfl,
          accounted₁.pop full rfl (.inr ⟨rfl, rfl⟩) rfl⟩
  · -- a circuit is chosen
    obtain ⟨rfl, active, free, rfl, rfl⟩ := second
    obtain ⟨picked, pick⟩ := pick_of_active booked policy active
    have booked₁ := booked_withMux booked { w.mux with lastCellWasDestroy := false }
      rfl rfl rfl rfl rfl
    have accounted₁ : Accounted { w.mux with lastCellWasDestroy := false }
        (notes ++ [.chose false (bothPending w.mux)]) := by
      apply accounted.choose
      intro both same
      simp only [bothPending, Bool.and_eq_true, Bool.not_eq_true'] at both
      rcases free with empty | set_
      · have empty' : w.mux.destroyCellQueue = [] := empty
        rw [empty'] at both
        exact absurd both.1 (by simp)
      · have set' : w.mux.lastCellWasDestroy = true := set_
        rw [set'] at same
        cases same
    simp only [pick, Bool.false_eq_true, if_false, Option.bind_eq_some_iff] at sent
    obtain ⟨⟨pass₁, w₁⟩, flushed, last⟩ := sent
    cases last
    obtain ⟨booked₂, same⟩ := flushCircuit_booked pow booked₁ policy pick flushed
    exact ⟨booked₂, accounted₁.same same⟩
  · -- there is nothing to send
    obtain ⟨rfl, rfl, rfl⟩ := third
    cases sent
    rw [List.append_nil]
    exact ⟨booked, accounted⟩

theorem flushLoop_orderly {max : Nat} {writes : List Bool} {nFlushed total : Nat}
    {w w' : MuxWorld} {notes notes' : List FlushNote} (orderly : Orderly w notes)
    (result : flushLoop pow max writes nFlushed w notes = some (total, w', notes')) :
    Orderly w' notes' ∧ notes <+: notes' := by
  induction writes generalizing nFlushed w notes with
  | nil =>
    rw [flushLoop] at result
    split at result
    · cases result
      exact ⟨orderly, List.prefix_refl _⟩
    · cases result
  | cons writeOk writes ih =>
    rw [flushLoop] at result
    split at result
    · cases result
      exact ⟨orderly, List.prefix_refl _⟩
    · simp only [Option.bind_eq_bind, Option.bind_eq_some_iff] at result
      obtain ⟨⟨pass, mid, new⟩, passed, more⟩ := result
      have after := flushPass_orderly pow orderly passed
      cases pass with
      | none =>
        cases more
        exact ⟨after, List.prefix_append notes new⟩
      | some sent => exact (ih after more).imp_right (List.prefix_append notes new).trans

/-! ## A channel over time -/

theorem appendDestroy_orderly {w w' : MuxWorld} {notes notes' : List FlushNote}
    {circId : UInt32} {reason : UInt8} {queuedWrites : Bool} {writes : List Bool}
    (orderly : Orderly w notes)
    (result : circuitmuxAppendDestroyCell pow w notes circId reason queuedWrites writes
      = some (w', notes')) : Orderly w' notes' ∧ notes <+: notes' := by
  have appended : Orderly
      (withState w { w.state with mux := destroyCellQueueAppend w.mux circId reason })
      notes := by
    constructor
    · exact booked_withMux orderly.booked _ rfl rfl rfl rfl rfl
    · constructor
      · have counted := orderly.accounted.counted
        simp only [withState, mux, destroyCellQueueAppend] at counted ⊢
        rw [counted, List.length_append, List.length_singleton]
        omega
      · exact orderly.accounted.last
      · exact orderly.accounted.alternates
  simp only [circuitmuxAppendDestroyCell] at result
  split at result
  · cases result
    exact ⟨appended, List.prefix_refl notes⟩
  · simp only [Option.bind_eq_bind, Option.bind_eq_some_iff] at result
    obtain ⟨⟨total, w₁, notes₁⟩, flushed, last⟩ := result
    cases last
    exact flushLoop_orderly pow appended flushed

theorem updateCircuitOnCmux_orderly {w w' : MuxWorld} {notes : List FlushNote} {circ : CircRef}
    {direction : CellDirection} (orderly : Orderly w notes)
    (result : updateCircuitOnCmux pow w circ direction = some w') : Orderly w' notes := by
  simp only [updateCircuitOnCmux, Option.bind_eq_bind, Option.bind_eq_some_iff] at result
  obtain ⟨found, -, updated⟩ := result
  split at updated
  · cases updated
    exact orderly
  · simp only [Option.bind_eq_some_iff] at updated
    obtain ⟨-, -, s', changed, last⟩ := updated
    cases last
    exact ⟨circuitmuxSetNumCells_booked pow orderly.booked changed,
      orderly.accounted.same (circuitmuxSetNumCells_frame pow changed)⟩

theorem channelStep_orderly {w w' : ChannelWorld} {ev : ChannelEvent}
    (orderly : Orderly w.world w.notes) (taken : ChannelStep pow w ev w') :
    Orderly w'.world w'.notes ∧ w.notes <+: w'.notes := by
  obtain ⟨permitted, result⟩ := taken
  cases ev with
  | appendDestroy circId reason queuedWrites writes =>
    obtain ⟨⟨world, notes⟩, appended, rfl⟩ := Option.map_eq_some_iff.mp result
    exact appendDestroy_orderly pow orderly appended
  | queueCells circ direction n =>
    obtain ⟨world, updated, rfl⟩ := Option.map_eq_some_iff.mp result
    have queued : Orderly (withCells w.world circ direction n) w.notes :=
      ⟨booked_withCells orderly.booked circ direction n, orderly.accounted⟩
    exact ⟨updateCircuitOnCmux_orderly pow queued updated, List.prefix_refl w.notes⟩
  | flush max writes =>
    obtain ⟨⟨total, world, notes⟩, flushed, rfl⟩ := Option.map_eq_some_iff.mp result
    exact flushLoop_orderly pow orderly flushed
  | call ev =>
    obtain ⟨world, step, rfl⟩ := Option.map_eq_some_iff.mp result
    refine ⟨⟨booked_of_step pow ⟨permitted, step⟩ orderly.booked, ?_⟩, List.prefix_refl w.notes⟩
    obtain ⟨s', after, rfl⟩ := Option.map_eq_some_iff.mp step
    exact orderly.accounted.same (stateAfter_frame pow after)

theorem orderly_of_run {w₀ w : ChannelWorld} {ts : List (Transition ChannelWorld ChannelEvent)}
    (fresh : Fresh w₀.world) (none_ : w₀.notes = []) (run : Run (ChannelStep pow) w₀ ts w) :
    Orderly w.world w.notes := by
  have alloc : w₀.world.mux = circuitmuxAlloc := fresh.alloc
  have start : Orderly w₀.world w₀.notes := by
    refine ⟨booked_of_fresh fresh, ?_⟩
    rw [alloc, none_]
    exact ⟨rfl, by simp [choices], List.IsChain.nil⟩
  exact run.invariant start fun _ _ _ orderly taken => (channelStep_orderly pow orderly taken).1

theorem counted_iff {w : MuxWorld} {notes : List FlushNote} (orderly : Orderly w notes) :
    Counted w.mux ↔ FlushNote.destroyLost ∉ notes := by
  have counted := orderly.accounted.counted
  rw [Counted, ← List.count_eq_zero]
  omega

/-- In every run, the counter equals the length of the queue after each call, and the choices
alternate, exactly if no write of a DESTROY cell fails. (The choices alternate in any case.) -/
theorem destroys_counted_iff {w₀ w : ChannelWorld}
    {ts : List (Transition ChannelWorld ChannelEvent)} (fresh : Fresh w₀.world)
    (none_ : w₀.notes = []) (run : Run (ChannelStep pow) w₀ ts w) :
    (∀ x ∈ ts, Counted x.post.mux) ∧ Alternates w.notes ↔ FlushNote.destroyLost ∉ w.notes := by
  have counted : (∀ x ∈ ts, Counted x.post.mux) ↔ FlushNote.destroyLost ∉ w.notes := by
    induction run with
    | nil => simp [none_]
    | snoc before last ih =>
      have reached := orderly_of_run pow fresh none_ before
      obtain ⟨after, grown⟩ := channelStep_orderly pow reached last
      simp only [List.forall_mem_append, List.forall_mem_singleton, ih]
      apply (and_congr_right' (counted_iff after)).trans
      constructor
      · exact fun both => both.2
      · exact fun absent => ⟨fun earlier => absent (grown.subset earlier), absent⟩
  rw [counted, and_iff_left]
  exact (orderly_of_run pow fresh none_ run).accounted.alternates

/-! ## Six circuits -/

def sixCircuitsChannel : ChannelWorld := ⟨sixCircuits, []⟩

/-- Two DESTROY cells are queued beside a circuit with one cell, and all is sent. -/
def mixedEvents : List ChannelEvent :=
  [.call (.setPolicy true), .call (.attach 0 .outbound), .appendDestroy 90 1 true [],
    .appendDestroy 91 1 true [], .flush 3 [true, true, true]]

theorem destroys_counted_iff_sixCircuits :
    ∃ w ts, Run (ChannelStep wholePow) sixCircuitsChannel ts w
      ∧ w.notes = [.chose true true, .chose false true, .chose true false]
      ∧ ((∀ x ∈ ts, Counted x.post.mux) ∧ Alternates w.notes
          ↔ FlushNote.destroyLost ∉ w.notes) := by
  have ends : (runEvents wholePow sixCircuitsChannel mixedEvents).any fun w =>
      decide (w.notes = [.chose true true, .chose false true, .chose true false]) := by
    decide +kernel
  obtain ⟨w, result, notes⟩ := (Option.any_eq_true _ _).mp ends
  obtain ⟨ts, run⟩ := run_of_runEvents wholePow result
  exact ⟨w, ts, run, by simpa using notes, destroys_counted_iff wholePow sixCircuits_fresh rfl run⟩

/-- A DESTROY cell is queued on an idle channel, and its write fails. -/
def failingEvents : List ChannelEvent :=
  [.call (.setPolicy true), .appendDestroy 90 1 false [false, true]]

theorem destroyCtr_ahead :
    ∃ w ts, Fresh sixCircuitsChannel.world ∧ Run (ChannelStep wholePow) sixCircuitsChannel ts w
      ∧ w.mux.destroyCtr = 1 ∧ w.mux.destroyCellQueue = [] := by
  have ends : (runEvents wholePow sixCircuitsChannel failingEvents).any fun w =>
      decide (w.mux.destroyCtr = 1 ∧ w.mux.destroyCellQueue = []) := by decide +kernel
  obtain ⟨w, result, ahead⟩ := (Option.any_eq_true _ _).mp ends
  obtain ⟨ts, run⟩ := run_of_runEvents wholePow result
  exact ⟨w, ts, sixCircuits_fresh, run, by simpa using ahead⟩

end RendezMix.Guarantees.DestroyAccounting
