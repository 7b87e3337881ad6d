import RendezMix.Guarantees.StepLife
import RendezMix.Library.DelayLine

/-!
# Cells keep circuit order

Each direction of an open or_circuit is a delay line: the delay queue holds
cells back, the channel queue is ready to leave. A circuit that has cells in
its delay queue delays every further cell, since its policy never changes, so
no cell overtakes another.
-/
namespace RendezMix.Guarantees
open Source Library.Runs Library.DelayLine

/-- The copy that an event accepts for a direction. -/
def acceptedBy (d : CellDirection) : Event → List PackedCell
  | .accepted _ e _ _ copy => if e = d then [copy] else []
  | _ => []

/-- The cell that an event pops from the channel queue of a direction. -/
def poppedBy (d : CellDirection) : Event → List PackedCell
  | .written _ e _ _ cell => if e = d then [cell] else []
  | .writeFailed _ e cell => if e = d then [cell] else []
  | _ => []

/-- The cells that an event clears from a direction's queues. -/
def clearedBy (d : CellDirection) : Event → List PackedCell
  | .cleared _ e cells => if e = d then cells else []
  | _ => []

def acceptedOf (d : CellDirection) (events : List Event) : List PackedCell :=
  events.flatMap (acceptedBy d)

def poppedOf (d : CellDirection) (events : List Event) : List PackedCell :=
  events.flatMap (poppedBy d)

def clearedOf (d : CellDirection) (events : List Event) : List PackedCell :=
  events.flatMap (clearedBy d)

/-- The cells that left a direction's queues, in the order in which they left. -/
def removedOf (d : CellDirection) (events : List Event) : List PackedCell :=
  events.flatMap (fun event => poppedBy d event ++ clearedBy d event)

variable (cfg : Config) (r : Relay) (op : Op) (c : CircPtr) (circ : Circuit) (d : CellDirection)
  (first : List Event) (event : Event) (e : CellDirection) (now : ClockReading)
  (rest second : List Event) (chan : ChanPtr) (t : TimerPtr) (life : Life) (events : List Event)
  (hop : Hop)

@[simp] theorem acceptedOf_append :
    acceptedOf d (first ++ second) = acceptedOf d first ++ acceptedOf d second :=
  List.flatMap_append ..

@[simp] theorem clearedOf_append :
    clearedOf d (first ++ second) = clearedOf d first ++ clearedOf d second :=
  List.flatMap_append ..

@[simp] theorem removedOf_append :
    removedOf d (first ++ second) = removedOf d first ++ removedOf d second :=
  List.flatMap_append ..

@[simp] theorem acceptedOf_cons :
    acceptedOf d (event :: rest) = acceptedBy d event ++ acceptedOf d rest := rfl

@[simp] theorem poppedOf_cons :
    poppedOf d (event :: rest) = poppedBy d event ++ poppedOf d rest := rfl

@[simp] theorem clearedOf_cons :
    clearedOf d (event :: rest) = clearedBy d event ++ clearedOf d rest := rfl

@[simp] theorem removedOf_cons :
    removedOf d (event :: rest) = poppedBy d event ++ clearedBy d event ++ removedOf d rest := rfl

@[simp] theorem acceptedOf_nil : acceptedOf d [] = [] := rfl

@[simp] theorem poppedOf_nil : poppedOf d [] = [] := rfl

@[simp] theorem clearedOf_nil : clearedOf d [] = [] := rfl

@[simp] theorem removedOf_nil : removedOf d [] = [] := rfl

theorem removedOf_eq_poppedOf (kept : clearedOf d events = []) :
    removedOf d events = poppedOf d events := by
  induction events with
  | nil => rfl
  | cons event rest ih =>
    rw [clearedOf_cons, List.append_eq_nil_iff] at kept
    rw [removedOf_cons, poppedOf_cons, ih kept.2, kept.1, List.append_nil]

/-- One direction of a life as a delay line. -/
def lineOf (d : CellDirection) (life : Life) : Line PackedCell where
  entered := acceptedOf d life.history
  left := removedOf d life.history
  out := (life.circ.hop d).chanCells
  held := (life.circ.hop d).delayQueue

/-- Events that neither accept nor remove a cell of direction `d`. -/
def Quiet (d : CellDirection) (events : List Event) : Prop :=
  acceptedOf d events = [] ∧ removedOf d events = []

theorem releaseLoop_split (now : Timeval) (i : Nat) (queue : CellQueue) :
    queue = (releaseLoop now i queue).1 ++ (releaseLoop now i queue).2 := by
  induction queue generalizing i with
  | nil => rfl
  | cons cell rest ih =>
    rw [releaseLoop]
    split
    · rw [List.cons_append, ← ih (i + 1)]
    · rfl

theorem quiet_nil : Quiet d [] := ⟨rfl, rfl⟩

theorem quiet_append (quiet : Quiet d first) (also : Quiet d second) :
    Quiet d (first ++ second) := by
  constructor
  · rw [acceptedOf_append, quiet.1, also.1]
    rfl
  · rw [removedOf_append, quiet.2, also.2]
    rfl

theorem quiet_sync : Quiet d (circuitSynchronizeWrittenOrBandwidth cfg c circ e) := by
  unfold circuitSynchronizeWrittenOrBandwidth
  split
  · exact quiet_nil d
  · exact ⟨rfl, rfl⟩

theorem quiet_released (circId : UInt32) (now : Timeval) (cells : List PackedCell) :
    Quiet d (cells.map (.released c e chan circId now)) := by
  constructor
  · unfold acceptedOf
    rw [List.flatMap_map]
    exact List.flatMap_eq_nil_iff.mpr (fun _ _ => rfl)
  · unfold removedOf
    rw [List.flatMap_map]
    exact List.flatMap_eq_nil_iff.mpr (fun _ _ => rfl)

theorem lineOf_setHop_self :
    lineOf d (life.setHop events d hop) =
      { entered := acceptedOf d life.history ++ acceptedOf d events
        left := removedOf d life.history ++ removedOf d events
        out := hop.chanCells
        held := hop.delayQueue } := by
  simp [lineOf, Life.setHop, Life.record]

theorem lineOf_setHop_other (ne : d ≠ e) (quiet : Quiet d events) :
    lineOf d (life.setHop events e hop) = lineOf d life := by
  simp [lineOf, Life.setHop, Life.record, Circuit.hop_setHop_of_ne _ _ _ _ ne, quiet.1, quiet.2]

theorem lineOf_record (circ : Circuit) (quiet : Quiet d events)
    (queues : (circ.hop d).chanCells = (life.circ.hop d).chanCells ∧
      (circ.hop d).delayQueue = (life.circ.hop d).delayQueue) :
    lineOf d (life.record events circ) = lineOf d life := by
  simp [lineOf, Life.record, quiet.1, quiet.2, queues.1, queues.2]

section

variable (final : Life) (block : Bool) (streamId : UInt16) {before after : Circuit}

theorem lineOf_schedule : lineOf d (life.schedule c e now t) = lineOf d life := by
  unfold Life.schedule
  split
  · rfl
  · by_cases same : d = e
    · subst same
      rw [lineOf_setHop_self]
      simp [lineOf, acceptedBy, poppedBy, clearedBy]
    · exact lineOf_setHop_other d e life _ _ same ⟨rfl, rfl⟩

theorem lineOf_markForClose : lineOf d (life.markForClose cfg c) = lineOf d life := by
  unfold Life.markForClose
  split
  · rfl
  · have quiet := quiet_append d _ _ (quiet_append d _ _ (quiet_sync cfg c life.circ d .outbound)
      (quiet_sync cfg c life.circ d .inbound)) (⟨rfl, rfl⟩ : Quiet d [.markForClose c life.circ])
    exact lineOf_record d life _ _ quiet (by cases d <;> exact ⟨rfl, rfl⟩)

theorem setStreamsBlocked_hop (d : CellDirection) :
    ∃ flag, (circ.setStreamsBlocked chan block streamId).hop d =
      { circ.hop d with streamsBlocked := flag } := by
  unfold Circuit.setStreamsBlocked
  split
  · cases d with
    | outbound => exact ⟨block, rfl⟩
    | inbound => exact ⟨circ.p.streamsBlocked, rfl⟩
  · cases d with
    | outbound => exact ⟨circ.n.streamsBlocked, rfl⟩
    | inbound => exact ⟨block, rfl⟩

/-- The line of each direction of an open circuit takes one step of a delay line,
or none, at every change of the circuit. -/
theorem lifeStep_line (step : LifeStep cfg r op c life final) (d : CellDirection)
    (isOpen : life.circ.markedForClose = false)
    (delaying : (life.circ.hop d).delayQueue ≠ [] → life.circ.delays) :
    Step (lineOf d life) (lineOf d final) ∨ lineOf d final = lineOf d life := by
  cases step with
  | attach edge => exact Or.inr (lineOf_record d life _ _ (quiet_nil d) (by cases d <;> exact ⟨rfl, rfl⟩))
  | acceptDirect chan cell e fromstream env isOp first _ room direct =>
    by_cases same : d = e
    · subst same
      have empty : (lineOf d life).held = [] := by
        by_contra nonempty
        exact direct (delaying nonempty)
      rw [lineOf_setHop_self]
      have taken := Step.enterOut (lineOf d life) (appendCopy cfg r chan cell env) empty
      refine Or.inl ?_
      simpa [acceptedBy, poppedBy, clearedBy, lineOf] using taken
    · refine Or.inr (lineOf_setHop_other d e life _ _ same ⟨?_, rfl⟩)
      simp [acceptedBy, Ne.symm same]
  | acceptDelayed queued copy chan cell e fromstream env t isOp first _ room delayed copyEq
      queuedEq =>
    have result : lineOf d queued = lineOf d life ∨ Step (lineOf d life) (lineOf d queued) := by
      rw [queuedEq]
      by_cases same : d = e
      · subst same
        rw [lineOf_setHop_self]
        have taken := Step.enterHeld (lineOf d life) copy
        refine Or.inr ?_
        simpa [acceptedBy, poppedBy, clearedBy, lineOf] using taken
      · refine Or.inl (lineOf_setHop_other d e life _ _ same ⟨?_, rfl⟩)
        simp [acceptedBy, Ne.symm same]
    split
    · rw [lineOf_schedule]
      exact result.symm
    · exact result.symm
  | fireGone e t now scheduleNow armed isOp fires first _ isOr gone =>
    refine Or.inr ?_
    by_cases same : d = e
    · subst same
      rw [lineOf_setHop_self]
      simp [lineOf]
    · exact lineOf_setHop_other d e life _ _ same (quiet_nil d)
  | release moved e t next chan now scheduleNow armed isOp fires first _ isOr hasChan movedEq =>
    rw [lineOf_schedule, movedEq]
    by_cases same : d = e
    · subst same
      have quiet := quiet_released c d d chan (life.circ.hop d).circId now.val
        ((life.circ.hop d).readyCells now.val)
      rw [lineOf_setHop_self, quiet.1, quiet.2, List.append_nil, List.append_nil]
      exact Or.inl (Step.release (lineOf d life) _ _ (releaseLoop_split now.val 0 _))
    · exact Or.inr (lineOf_setHop_other d e life _ _ same (quiet_released ..))
  | popFailed e chan cell rest isOp first dir head
  | popWritten e chan cell rest isOp first dir head =>
    by_cases same : d = e
    · subst same
      rw [lineOf_setHop_self]
      have taken := Step.leave (lineOf d life) cell rest head
      refine Or.inl ?_
      simpa [acceptedBy, poppedBy, clearedBy, lineOf] using taken
    · refine Or.inr (lineOf_setHop_other d e life _ _ same ⟨rfl, ?_⟩)
      simp [poppedBy, clearedBy, Ne.symm same]
  | unblock e chan isOp dir blocked low =>
    obtain ⟨flag, hop⟩ := setStreamsBlocked_hop life.circ chan false 0 d
    exact Or.inr (lineOf_record d life _ _ (quiet_nil d) (by rw [hop]; exact ⟨rfl, rfl⟩))
  | block e chan cell fromstream env streamId isOp =>
    obtain ⟨flag, hop⟩ := setStreamsBlocked_hop life.circ chan true streamId d
    exact Or.inr (lineOf_record d life _ _ (quiet_nil d) (by rw [hop]; exact ⟨rfl, rfl⟩))
  | mark => exact Or.inr (lineOf_markForClose cfg c d life)
  | clearChan e marked =>
    rw [isOpen] at marked
    cases marked
  | clearDelay marked isOr =>
    rw [isOpen] at marked
    cases marked
  | truncate chan isOp first _ isOr hasChan =>
    by_cases same : d = .outbound
    · subst same
      rw [lineOf_setHop_self]
      have taken := Step.dropOut (lineOf .outbound life)
      have quiet := quiet_sync cfg c life.circ .outbound .outbound
      refine Or.inl ?_
      simpa [quiet.1, quiet.2, acceptedBy, poppedBy, clearedBy, lineOf, Circuit.hop] using taken
    · refine Or.inr (lineOf_setHop_other d .outbound life _ _ same
        (quiet_append d _ _ (quiet_sync cfg c life.circ d .outbound) ⟨rfl, ?_⟩))
      simp [poppedBy, clearedBy, Ne.symm same]
  | connect chan circId isOp first _ noChan allowed =>
    refine Or.inr ?_
    by_cases same : d = .outbound
    · subst same
      rw [lineOf_setHop_self]
      simp [lineOf, Circuit.hop]
    · exact lineOf_setHop_other d .outbound life _ _ same (quiet_nil d)
  | unlink e isOp first hasChan =>
    refine Or.inr ?_
    rw [lineOf_markForClose]
    by_cases same : d = e
    · subst same
      rw [lineOf_setHop_self]
      simp [lineOf]
    · exact lineOf_setHop_other d e life _ _ same (quiet_nil d)

/-! ## What no change undoes -/

/-- The policy and the kind of the circuit stay, and so does its mark. -/
structure Keeps (before after : Circuit) : Prop where
  magic : after.magic = before.magic
  isSet : after.delayPolicyIsSet = before.delayPolicyIsSet
  policy : after.delayPolicy = before.delayPolicy
  marked : before.markedForClose = true → after.markedForClose = true

theorem Keeps.trans {first second third : Circuit} (keeps : Keeps first second)
    (next : Keeps second third) : Keeps first third :=
  ⟨next.magic.trans keeps.magic, next.isSet.trans keeps.isSet, next.policy.trans keeps.policy,
    fun marked => next.marked (keeps.marked marked)⟩

section

variable (keeps : Keeps before after)

include keeps

theorem Keeps.delays : after.delays ↔ before.delays := by
  unfold Circuit.delays
  rw [keeps.magic, keeps.isSet, keeps.policy]

theorem Keeps.isOpen (isOpen : after.markedForClose = false) : before.markedForClose = false := by
  by_contra marked
  have still := keeps.marked (by simpa using marked)
  rw [isOpen] at still
  cases still

end

theorem keeps_setHop : Keeps circ (circ.setHop d hop) := by
  cases d with
  | outbound | inbound => exact ⟨rfl, rfl, rfl, id⟩

theorem Keeps.schedule {circ : Circuit} {life : Life} (keeps : Keeps circ life.circ)
    (c : CircPtr) (d : CellDirection) (now : ClockReading) (t : TimerPtr) :
    Keeps circ (life.schedule c d now t).circ := by
  unfold Life.schedule
  split
  · exact keeps
  · exact keeps.trans (keeps_setHop life.circ d { life.circ.hop d with delayTimer := some t })

theorem keeps_setStreamsBlocked : Keeps circ (circ.setStreamsBlocked chan block streamId) := by
  unfold Circuit.setStreamsBlocked
  split
  · exact ⟨rfl, rfl, rfl, id⟩
  · exact ⟨rfl, rfl, rfl, id⟩

theorem Keeps.markForClose {circ : Circuit} {life : Life} (keeps : Keeps circ life.circ)
    (cfg : Config) (c : CircPtr) : Keeps circ (life.markForClose cfg c).circ := by
  unfold Life.markForClose
  split
  · exact keeps
  · exact ⟨keeps.magic, keeps.isSet, keeps.policy, fun _ => rfl⟩

theorem lifeStep_keeps (step : LifeStep cfg r op c life final) : Keeps life.circ final.circ := by
  cases step with
  | acceptDelayed queued copy chan cell e fromstream env t isOp first isOpen room delayed copyEq
      queuedEq =>
    have enqueued : Keeps life.circ queued.circ := by
      rw [queuedEq]
      exact keeps_setHop life.circ e _
    split
    · exact enqueued.schedule c e env.scheduleNow t
    · exact enqueued
  | release moved e t next chan now scheduleNow armed isOp fires first isOpen isOr hasChan
      movedEq =>
    have released : Keeps life.circ moved.circ := by
      rw [movedEq]
      exact keeps_setHop life.circ e _
    exact released.schedule c e scheduleNow next
  | unblock e chan isOp dir blocked low | block e chan cell fromstream env streamId isOp =>
    exact keeps_setStreamsBlocked ..
  | attach | clearDelay | truncate | connect => exact ⟨rfl, rfl, rfl, id⟩
  | mark => exact (⟨rfl, rfl, rfl, id⟩ : Keeps life.circ life.circ).markForClose cfg c
  | unlink e isOp first hasChan =>
    refine Keeps.markForClose ?_ cfg c
    exact keeps_setHop life.circ e _
  | _ => exact keeps_setHop life.circ _ _

end

/-! ## The law -/

/-- A direction with cells in its delay queue delays every further cell; in each
direction of an open circuit the law of the line holds. -/
structure OrderInv (life : Life) : Prop where
  delaying : ∀ d, (life.circ.hop d).delayQueue ≠ [] → life.circ.delays
  conserved : life.circ.markedForClose = false → ∀ d, Conserved (lineOf d life)

section

variable (created : Created cfg op circ)

include created

theorem created_hop (d : CellDirection) : ∃ chan circId, circ.hop d = Hop.init chan circId := by
  cases created with
  | orCircuit chan circId policy | originCircuit closeHeld halfStreams =>
    cases d <;> exact ⟨_, _, rfl⟩

theorem orderInv_created : OrderInv ⟨[], circ⟩ := by
  constructor
  · intro d nonempty
    obtain ⟨chan, circId, fresh⟩ := created_hop cfg op circ created d
    rw [fresh] at nonempty
    exact absurd rfl nonempty
  · intro _ d
    obtain ⟨chan, circId, fresh⟩ := created_hop cfg op circ created d
    simp [Conserved, lineOf, fresh, Hop.init]

end

theorem setHop_nonempty (shrinks : hop.delayQueue ≠ [] → (circ.hop e).delayQueue ≠ [])
    (nonempty : ((circ.setHop e hop).hop d).delayQueue ≠ []) : (circ.hop d).delayQueue ≠ [] := by
  by_cases same : d = e
  · subst same
    rw [Circuit.hop_setHop] at nonempty
    exact shrinks nonempty
  · rwa [Circuit.hop_setHop_of_ne _ _ _ _ same] at nonempty

section

variable (final : Life) (x : Transition Relay Op) {ts : List (Transition Relay Op)}

theorem schedule_delayQueue :
    ((life.schedule c e now t).circ.hop d).delayQueue = (life.circ.hop d).delayQueue :=
  congrArg Line.held (lineOf_schedule c d e now t life)

theorem markForClose_delayQueue :
    ((life.markForClose cfg c).circ.hop d).delayQueue = (life.circ.hop d).delayQueue :=
  congrArg Line.held (lineOf_markForClose cfg c d life)

section

variable (step : LifeStep cfg r op c life final)

include step

theorem lifeStep_delaying (d : CellDirection) (nonempty : (final.circ.hop d).delayQueue ≠ []) :
    (life.circ.hop d).delayQueue ≠ [] ∨ life.circ.delays := by
  cases step with
  | acceptDelayed queued copy chan cell e fromstream env t isOp first isOpen room delayed copyEq
      queuedEq => exact Or.inr delayed
  | release moved e t next chan now scheduleNow armed isOp fires first isOpen isOr hasChan
      movedEq =>
    rw [schedule_delayQueue, movedEq] at nonempty
    refine Or.inl (setHop_nonempty life.circ d e _ (fun left empty => left ?_) nonempty)
    simp [Hop.releaseReady, empty, releaseLoop]
  | unblock e chan isOp dir blocked low =>
    obtain ⟨flag, hop⟩ := setStreamsBlocked_hop life.circ chan false 0 d
    simp only [Life.record, hop] at nonempty
    exact Or.inl nonempty
  | block e chan cell fromstream env streamId isOp =>
    obtain ⟨flag, hop⟩ := setStreamsBlocked_hop life.circ chan true streamId d
    simp only [Life.record, hop] at nonempty
    exact Or.inl nonempty
  | attach => cases d <;> exact Or.inl nonempty
  | mark =>
    rw [markForClose_delayQueue] at nonempty
    exact Or.inl nonempty
  | unlink e isOp first hasChan =>
    rw [markForClose_delayQueue] at nonempty
    refine Or.inl (setHop_nonempty life.circ d e _ ?_ nonempty)
    exact id
  | clearDelay => cases d <;> exact absurd rfl nonempty
  | truncate | connect =>
    refine Or.inl (setHop_nonempty life.circ d .outbound _ ?_ nonempty)
    exact id
  | acceptDirect chan cell e | fireGone e | popFailed e | popWritten e | clearChan e =>
    refine Or.inl (setHop_nonempty life.circ d e _ ?_ nonempty)
    exact id

theorem lifeStep_order (inv : OrderInv life) : OrderInv final := by
  have keeps := lifeStep_keeps cfg r op c life final step
  constructor
  · intro d nonempty
    rw [keeps.delays]
    rcases lifeStep_delaying cfg r op c life final step d nonempty with before | delays
    · exact inv.delaying d before
    · exact delays
  · intro isOpen d
    have wasOpen := keeps.isOpen isOpen
    exact conserved_of_step_or_eq
      (lifeStep_line cfg r op c life final step d wasOpen (inv.delaying d))
      (inv.conserved wasOpen d)

end

theorem run_order {cfg : Config} {r : Relay} (run : RelayRun cfg ts r) (c : CircPtr) (life : Life)
    (live : lifeOf r c = some life) : OrderInv life := by
  have invariant : ∀ c life, lifeOf r c = some life → OrderInv life :=
    run_life run (fun c op circ created => orderInv_created cfg op circ created)
      (fun x _ c life final step inv => lifeStep_order cfg x.pre x.input c life final step inv)
  exact invariant c life live

/-- The step does not take the channel of a direction away from a circuit. -/
def KeepsChannel (c : CircPtr) (d : CellDirection) (x : Transition Relay Op) : Prop :=
  ∀ before ∈ x.pre.circuits c, ∀ after ∈ x.post.circuits c,
    ∀ chan ∈ (before.hop d).chan, chan ∈ (after.hop d).chan

instance (c : CircPtr) (d : CellDirection) (x : Transition Relay Op) :
    Decidable (KeepsChannel c d x) :=
  inferInstanceAs (Decidable (∀ _ ∈ _, _))

theorem clearedOf_sync : clearedOf d (circuitSynchronizeWrittenOrBandwidth cfg c circ e) = [] := by
  unfold circuitSynchronizeWrittenOrBandwidth
  split
  · rfl
  · rfl

theorem clearedOf_released (circId : UInt32) (now : Timeval) (cells : List PackedCell) :
    clearedOf d (cells.map (.released c e chan circId now)) = [] := by
  unfold clearedOf
  rw [List.flatMap_map]
  exact List.flatMap_eq_nil_iff.mpr (fun _ _ => rfl)

theorem clearedOf_schedule :
    clearedOf d (life.schedule c e now t).history = clearedOf d life.history := by
  unfold Life.schedule
  split
  · rfl
  · simp [Life.setHop, Life.record, clearedBy]

theorem clearedOf_markForClose :
    clearedOf d (life.markForClose cfg c).history = clearedOf d life.history := by
  unfold Life.markForClose
  split
  · rfl
  · simp [Life.record, clearedOf_sync, clearedBy]

theorem truncate_loses (c : CircPtr) (life : Life) (chan : ChanPtr)
    (taken : Step cfg x.pre x.input x.post) (isOp : x.input = .truncate c)
    (first : lifeOf x.pre c = some life) (hasChan : life.circ.n.chan = some chan) :
    ¬ KeepsChannel c .outbound x := by
  intro kept
  obtain ⟨_, result⟩ := taken
  rw [isOp] at result
  have change : Rewrites x.pre (truncateNextHop cfg c x.pre) c _ :=
    truncateNextHop_rewrites c chan x.pre life first hasChan
  have alive := live_of_lifeOf change.own
  rw [← show x.post = truncateNextHop cfg c x.pre from result] at alive
  have lost := kept life.circ (live_of_lifeOf first) _ alive chan hasChan
  cases lost

/-- An open circuit whose channel stays loses no cell to a queue being cleared. -/
theorem lifeStep_cleared (c : CircPtr) (d : CellDirection) (life final : Life)
    (taken : Step cfg x.pre x.input x.post) (step : LifeStep cfg x.pre x.input c life final)
    (kept : KeepsChannel c d x)
    (inv : life.circ.markedForClose = false → clearedOf d life.history = [])
    (isOpen : final.circ.markedForClose = false) : clearedOf d final.history = [] := by
  have before := inv ((lifeStep_keeps cfg x.pre x.input c life final step).isOpen isOpen)
  cases step with
  | acceptDelayed queued copy chan cell e fromstream env t isOp first wasOpen room delayed copyEq
      queuedEq =>
    have same : clearedOf d queued.history = [] := by
      rw [queuedEq]
      simp [Life.setHop, Life.record, before, clearedBy]
    split
    · rw [clearedOf_schedule, same]
    · exact same
  | release moved e t next chan now scheduleNow armed isOp fires first wasOpen isOr hasChan
      movedEq =>
    rw [clearedOf_schedule, movedEq]
    simp [Life.setHop, Life.record, before, clearedOf_released]
  | clearChan e marked =>
    rw [Life.setHop, Life.record, Circuit.setHop_markedForClose, marked] at isOpen
    cases isOpen
  | clearDelay marked isOr =>
    rw [Life.record, marked] at isOpen
    cases isOpen
  | truncate chan isOp first wasOpen isOr hasChan =>
    have other : d ≠ .outbound := by
      intro same
      exact truncate_loses cfg x c life chan taken isOp first hasChan (same ▸ kept)
    simp [Life.setHop, Life.record, before, clearedOf_sync, clearedBy, other.symm]
  | mark => rw [clearedOf_markForClose, before]
  | unlink e isOp first hasChan =>
    rw [clearedOf_markForClose]
    simp [Life.setHop, Life.record, before]
  | _ => simp [Life.setHop, Life.record, before, clearedBy]

theorem run_cleared {cfg : Config} {r : Relay} (run : RelayRun cfg ts r) (c : CircPtr)
    (d : CellDirection) (kept : ∀ x ∈ ts, KeepsChannel c d x) (life : Life)
    (live : lifeOf r c = some life) (isOpen : life.circ.markedForClose = false) :
    clearedOf d life.history = [] := by
  have invariant : ∀ c' life, lifeOf r c' = some life → c' = c →
      life.circ.markedForClose = false → clearedOf d life.history = [] := by
    refine run_life run (fun _ _ _ _ _ _ => rfl) ?_
    intro x member c' before after step held same isOpen
    subst same
    exact lifeStep_cleared cfg x c' d before after (run.step_of_mem x member) step
      (kept x member) (held rfl) isOpen
  exact invariant c life live rfl isOpen

end

/-- In every run, for each direction of an open or_circuit that keeps its channel:
the cells popped from the channel queue, then the channel queue, then the delay
queue are the cells that were accepted, in the order in which they were. -/
theorem cells_keep_order (cfg : Config) (ts : List (Transition Relay Op)) (r : Relay)
    (run : RelayRun cfg ts r) (c : CircPtr) (d : CellDirection) (circ : Circuit)
    (live : r.circuits c = some circ) (isOpen : circ.markedForClose = false)
    (kept : ∀ x ∈ ts, KeepsChannel c d x) :
    poppedOf d (history c r.log) ++ (circ.hop d).chanCells ++ (circ.hop d).delayQueue =
      acceptedOf d (history c r.log) := by
  have life := lifeOf_of_circuits live
  have order := (run_order run c _ life).conserved isOpen d
  have cleared := run_cleared run c d kept _ life isOpen
  rw [← removedOf_eq_poppedOf d _ cleared]
  exact order

/-! ## A concrete relay -/

/-- A relay with small limits; channel `k` leads to the relay with identity `k`. -/
def sampleConfig : Config where
  maxCircuitCellQueueSize := 50
  maxCircuitCellQueueSizeOut := 50
  cellQueueHighwatermark := 256
  cellQueueLowwatermark := 10
  autoDelayPolicy := DelayPolicy.zero
  disableDelays := false
  channel := fun chan => ⟨true, [UInt8.ofNat chan], false⟩
  queueSize_min := by decide
  highwatermark_range := by decide
  lowwatermark_range := by decide

/-- Uniform delays of at most 10 ms. -/
def samplePolicy : DelayPolicy := ⟨delayModeUniform, 0, 10, 10⟩

def sampleCell (circId : UInt32) : Cell where
  circId := circId
  command := 3
  payload := ⟨List.replicate cellPayloadSize 0, List.length_replicate⟩

instance neZeroMillion : NeZero 1000000 := ⟨by decide⟩

def clockAt (usec : Fin 1000000) : ClockReading :=
  ⟨⟨0, usec.val⟩, Int.natCast_nonneg _, Int.ofNat_lt.mpr usec.isLt⟩

/-- An append at an instant, with a sampled delay in microseconds. -/
def sampleEnv (usec : Fin 1000000) (sample : ℚ) : AppendEnv where
  stamp := 0
  readyNow := clockAt usec
  sample := sample
  scheduleNow := clockAt usec
  oomKills := none

/-- The relay after some steps from its start. -/
def sampleRelay (cfg : Config) (ops : List Op) : Relay := final (exec cfg) Relay.initial ops

/-- The transitions of those steps. -/
def sampleTrace (cfg : Config) (ops : List Op) : List (Transition Relay Op) :=
  trace (exec cfg) Relay.initial ops

/-- Two delayed cells, of which the first is released and flushed. -/
def delayedCells : List Op :=
  [.createOr 1 7 (some samplePolicy), .connect 0 2 9,
    .append 0 2 (sampleCell 9) .outbound 0 (sampleEnv 0 5000),
    .append 0 2 (sampleCell 9) .outbound 0 (sampleEnv 0 5000),
    .fire 3 (clockAt 5000) (clockAt 5000), .flush 0 2 true]

theorem delayedCells_run :
    RelayRun sampleConfig (sampleTrace sampleConfig delayedCells)
      (sampleRelay sampleConfig delayedCells) :=
  relayRun_of_admissible sampleConfig delayedCells (by decide +kernel)

theorem cells_keep_order_delayedCells :
    ∃ circ, (sampleRelay sampleConfig delayedCells).circuits 0 = some circ ∧
      poppedOf .outbound (history 0 (sampleRelay sampleConfig delayedCells).log) ++
          (circ.hop .outbound).chanCells ++ (circ.hop .outbound).delayQueue =
        acceptedOf .outbound (history 0 (sampleRelay sampleConfig delayedCells).log) :=
  ⟨_, rfl, cells_keep_order sampleConfig _ _ delayedCells_run 0 .outbound _ rfl rfl
    (by decide +kernel)⟩

end RendezMix.Guarantees
