import RendezMix.Guarantees.HeldCells

/-!
# Cells that were read are accounted as written

When a circuit is marked for close, `circuit_synchronize_written_or_bandwidth`
reports the cells of each channel queue as written, so that the bandwidth history
does not show what the circuit still held. It does not look at the delay queues.
-/
namespace RendezMix.Guarantees
open Source Library.Runs Library.DelayLine Relation Circuit

/-- The cell that an event writes to the channel of a direction. -/
def writtenBy (d : CellDirection) : Event → List PackedCell
  | .written _ e _ _ cell => if e = d then [cell] else []
  | _ => []

/-- The cell of a direction whose write fails. -/
def failedBy (d : CellDirection) : Event → List PackedCell
  | .writeFailed _ e cell => if e = d then [cell] else []
  | _ => []

/-- The number of cells of a direction that an event reports as written. -/
def reportedBy (d : CellDirection) : Event → Nat
  | .bytesWritten _ e cells _ _ => if e = d then cells else 0
  | _ => 0

def writtenOf (d : CellDirection) (events : List Event) : List PackedCell :=
  events.flatMap (writtenBy d)

def failedOf (d : CellDirection) (events : List Event) : List PackedCell :=
  events.flatMap (failedBy d)

def reportedOf (d : CellDirection) (events : List Event) : Nat :=
  (events.map (reportedBy d)).sum

variable (cfg : Config) (r : Relay) (op : Op) (c : CircPtr) (circ : Circuit) (d : CellDirection)
  (first events second : List Event) (life final : Life)

theorem writtenOf_append :
    writtenOf d (first ++ second) = writtenOf d first ++ writtenOf d second :=
  List.flatMap_append ..

theorem failedOf_append : failedOf d (first ++ second) = failedOf d first ++ failedOf d second :=
  List.flatMap_append ..

theorem reportedOf_append :
    reportedOf d (first ++ second) = reportedOf d first + reportedOf d second := by
  simp [reportedOf]

theorem poppedOf_length :
    (poppedOf d events).length = (writtenOf d events).length + (failedOf d events).length := by
  induction events with
  | nil => rfl
  | cons event rest ih =>
    have split : (poppedBy d event).length =
        (writtenBy d event).length + (failedBy d event).length := by
      cases event with
      | written c e chan circId cell | writeFailed c e cell => simp [poppedBy, writtenBy, failedBy]
      | _ => rfl
    simp only [poppedOf, writtenOf, failedOf, List.flatMap_cons, List.length_append] at ih ⊢
    omega

/-! ## Open circuits -/

/-- Events of an open circuit that is never truncated: nothing is cleared and
nothing is reported. -/
def Plain : Event → Prop
  | .cleared .. => False
  | .bytesWritten .. => False
  | .markForClose .. => False
  | _ => True

section

variable (plain : ∀ event ∈ events, Plain event)

include plain

theorem plain_clearedOf : clearedOf d events = [] := by
  refine List.flatMap_eq_nil_iff.mpr (fun event member => ?_)
  have isPlain := plain event member
  cases event with
  | cleared => exact isPlain.elim
  | _ => rfl

theorem plain_reportedOf : reportedOf d events = 0 := by
  refine List.sum_eq_zero (fun count member => ?_)
  obtain ⟨event, isEvent, rfl⟩ := List.mem_map.mp member
  have isPlain := plain event isEvent
  cases event with
  | bytesWritten => exact isPlain.elim
  | _ => rfl

end

/-- The history of an open circuit is plain. -/
def PlainLife (life : Life) : Prop :=
  life.circ.markedForClose = false → ∀ event ∈ life.history, Plain event

theorem plain_append (plain : ∀ event ∈ first, Plain event) (also : ∀ event ∈ second, Plain event) :
    ∀ event ∈ first ++ second, Plain event := by
  intro event member
  exact (List.mem_append.mp member).elim (plain event) (also event)

theorem plain_schedule (now : ClockReading) (t : TimerPtr) (life : Life)
    (plain : ∀ event ∈ life.history, Plain event) :
    ∀ event ∈ (life.schedule c d now t).history, Plain event := by
  unfold Life.schedule
  split
  · exact plain
  · exact plain_append _ _ plain (by simp [Plain])

theorem markForClose_open (isOpen : (life.markForClose cfg c).circ.markedForClose = false) :
    life.markForClose cfg c = life := by
  unfold Life.markForClose at isOpen ⊢
  split at isOpen
  · next stays => rw [if_pos stays]
  · cases isOpen

section

variable {snap : Circuit} (log : List Event) (e : CellDirection)

theorem lifeStep_plain (step : LifeStep cfg r op c life final) (noTruncate : op ≠ .truncate c)
    (plain : PlainLife life) : PlainLife final := by
  intro isOpen
  have before := plain ((lifeStep_keeps cfg r op c life final step).isOpen isOpen)
  cases step with
  | acceptDelayed queued copy chan cell e fromstream env t isOp first wasOpen room delayed copyEq
      queuedEq =>
    have enqueued : ∀ event ∈ queued.history, Plain event := by
      rw [queuedEq]
      exact plain_append _ _ before (by simp [Plain])
    split
    · exact plain_schedule c e _ t queued enqueued
    · exact enqueued
  | release moved e t next chan now scheduleNow armed isOp fires first wasOpen isOr hasChan
      movedEq =>
    refine plain_schedule c e scheduleNow next moved ?_
    rw [movedEq]
    refine plain_append _ _ before (fun event member => ?_)
    obtain ⟨cell, _, rfl⟩ := List.mem_map.mp member
    exact trivial
  | mark =>
    rw [markForClose_open cfg c life isOpen]
    exact before
  | unlink e isOp first hasChan =>
    rw [markForClose_open cfg c _ isOpen]
    exact plain_append _ _ before (by simp)
  | clearChan e marked =>
    rw [Life.setHop, Life.record, setHop_markedForClose, marked] at isOpen
    cases isOpen
  | clearDelay marked isOr =>
    rw [Life.record, marked] at isOpen
    cases isOpen
  | truncate chan isOp => exact absurd isOp noTruncate
  | _ => exact plain_append _ _ before (by simp [Plain])

theorem run_plain {cfg : Config} {ts : List (Transition Relay Op)} {r : Relay}
    (run : RelayRun cfg ts r) (c : CircPtr) (noTruncate : ∀ x ∈ ts, x.input ≠ .truncate c)
    (life : Life) (live : lifeOf r c = some life) : PlainLife life := by
  have invariant : ∀ c' life, lifeOf r c' = some life → c' = c → PlainLife life := by
    refine run_life run (fun _ _ _ _ _ _ _ member => by cases member) ?_
    intro x member c' before after step held same
    subst same
    exact lifeStep_plain cfg x.pre x.input c' before after step (noTruncate x member) (held rfl)
  exact invariant c life live rfl

/-! ## The step that marks the circuit -/

/-- The history of a circuit that this step has marked: a plain one, the report
on the circuit as it was when it was marked, and queues being cleared. -/
structure Marked (c : CircPtr) (snap : Circuit) (life : Life) : Prop where
  isMarked : life.circ.markedForClose = true
  history : ∃ plain sync cleared,
    life.history = plain ++ sync ++ [.markForClose c snap] ++ cleared ∧
    (∀ event ∈ plain, Plain event) ∧ (∀ d, reportedOf d sync = (snap.hop d).chanCells.length) ∧
    (∀ event ∈ sync, ∃ d cells bytes isIpv6, event = .bytesWritten c d cells bytes isIpv6) ∧
    (∀ event ∈ cleared, ∃ d cells, event = .cleared c d cells) ∧
    ∀ d, poppedOf d plain ++ (snap.hop d).chanCells ++ (snap.hop d).delayQueue =
      acceptedOf d plain

theorem reportedOf_sync (isOr : circ.magic = .orCircuit) :
    reportedOf d (circuitSynchronizeWrittenOrBandwidth cfg c circ e) =
      if e = d then (circ.hop e).chanCells.length else 0 := by
  simp [circuitSynchronizeWrittenOrBandwidth, isOr, reportedOf, reportedBy]

theorem sync_bytesWritten :
    ∀ event ∈ circuitSynchronizeWrittenOrBandwidth cfg c circ e,
      ∃ d cells bytes isIpv6, event = .bytesWritten c d cells bytes isIpv6 := by
  unfold circuitSynchronizeWrittenOrBandwidth
  split
  · simp
  · intro event member
    exact ⟨_, _, _, _, List.mem_singleton.mp member⟩

theorem marked_of_markForClose (isOr : life.circ.magic = .orCircuit)
    (isOpen : life.circ.markedForClose = false) (plain : ∀ event ∈ life.history, Plain event)
    (conserved : ∀ d, Conserved (lineOf d life)) :
    Marked c life.circ (life.markForClose cfg c) := by
  refine ⟨Life.markForClose_marks cfg c life isOr, ?_⟩
  have marks : ¬ (life.circ.markedForClose = true ∨
      (life.circ.magic = .originCircuit ∧ life.circ.closeHeld = true)) := by
    simp [isOpen, isOr]
  rw [Life.markForClose, if_neg marks]
  refine ⟨life.history, circuitSynchronizeWrittenOrBandwidth cfg c life.circ .outbound ++
    circuitSynchronizeWrittenOrBandwidth cfg c life.circ .inbound, [], ?_, plain, fun d => ?_, ?_,
    by simp, fun d => ?_⟩
  · simp [Life.record]
  · rw [reportedOf_append, reportedOf_sync cfg c life.circ d _ isOr,
      reportedOf_sync cfg c life.circ d _ isOr]
    cases d <;> simp
  · intro event member
    exact (List.mem_append.mp member).elim
      (sync_bytesWritten cfg c life.circ .outbound event)
      (sync_bytesWritten cfg c life.circ .inbound event)
  · have law := conserved d
    rw [← removedOf_eq_poppedOf d _ (plain_clearedOf d life.history plain)]
    exact law

/-- An open circuit becomes marked only by `circuit_mark_for_close`. -/
theorem lifeStep_marks (step : LifeStep cfg r op c life final)
    (wasOpen : life.circ.markedForClose = false) (isMarked : final.circ.markedForClose = true) :
    ∃ before : Life, final = before.markForClose cfg c ∧ before.history = life.history ∧
      before.circ.magic = life.circ.magic ∧ before.circ.markedForClose = false ∧
      ∀ d, lineOf d before = lineOf d life := by
  have schedule : ∀ (first : Life) d now t, first.circ.markedForClose = false →
      (first.schedule c d now t).circ.markedForClose = false := by
    intro first d now t isOpen
    unfold Life.schedule
    split
    · exact isOpen
    · exact (setHop_markedForClose ..).trans isOpen
  have still : final.circ.markedForClose = false →
      ∃ before : Life, final = before.markForClose cfg c ∧ before.history = life.history ∧
        before.circ.magic = life.circ.magic ∧ before.circ.markedForClose = false ∧
        ∀ d, lineOf d before = lineOf d life := by
    intro isOpen
    rw [isOpen] at isMarked
    cases isMarked
  cases step with
  | mark => exact ⟨life, rfl, rfl, rfl, wasOpen, fun _ => rfl⟩
  | unlink e isOp first hasChan =>
    refine ⟨_, rfl, List.append_nil _, setHop_magic ..,
      (setHop_markedForClose ..).trans wasOpen, fun d => ?_⟩
    by_cases same : d = e
    · subst same
      rw [lineOf_setHop_self]
      simp [lineOf]
    · exact lineOf_setHop_other d e life _ _ same (quiet_nil d)
  | acceptDelayed queued copy chan cell e fromstream env t isOp first isOpen room delayed copyEq
      queuedEq =>
    have enqueued : queued.circ.markedForClose = false := by
      rw [queuedEq]
      exact (setHop_markedForClose ..).trans isOpen
    refine still ?_
    split
    · exact schedule queued e _ t enqueued
    · exact enqueued
  | release moved e t next chan now scheduleNow armed isOp fires first isOpen isOr hasChan
      movedEq =>
    refine still (schedule moved e scheduleNow next ?_)
    rw [movedEq]
    exact (setHop_markedForClose ..).trans isOpen
  | unblock e chan isOp dir blocked low popped | block e chan cell fromstream env streamId isOp =>
    refine still ?_
    unfold Life.record setStreamsBlocked
    split <;> exact wasOpen
  | attach | clearDelay => exact still wasOpen
  | _ => exact still ((setHop_markedForClose ..).trans wasOpen)

theorem Marked.clear {c : CircPtr} {life : Life} (marked : Marked c snap life)
    (events : List Event) (circ : Circuit) (isMarked : circ.markedForClose = true)
    (clears : ∀ event ∈ events, ∃ d cells, event = .cleared c d cells) :
    Marked c snap (life.record events circ) := by
  obtain ⟨plain, sync, cleared, history, isPlain, reports, isSync, isCleared, law⟩ := marked.history
  refine ⟨isMarked, plain, sync, cleared ++ events, ?_, isPlain, reports, isSync, ?_, law⟩
  · rw [Life.record, history]
    simp only [List.append_assoc]
  · intro event member
    exact (List.mem_append.mp member).elim (isCleared event) (clears event)

theorem lifeStep_marked (snap : Circuit) (life final : Life) (step : LifeStep cfg r op c life final)
    (wasOpen : ∀ first, lifeOf r c = some first → first.circ.markedForClose = false)
    (marked : Marked c snap life) : Marked c snap final := by
  have notFirst : lifeOf r c ≠ some life := by
    intro first
    have isOpen := wasOpen life first
    rw [marked.isMarked] at isOpen
    cases isOpen
  cases step with
  | mark =>
    rw [Life.markForClose, if_pos (Or.inl marked.isMarked)]
    exact marked
  | unblock e chan isOp dir blocked low popped =>
    refine marked.clear [] _ ?_ (by simp)
    exact (keeps_setStreamsBlocked life.circ chan false 0).marked marked.isMarked
  | block e chan cell fromstream env streamId isOp =>
    refine marked.clear [] _ ?_ (by simp)
    exact (keeps_setStreamsBlocked life.circ chan true streamId).marked marked.isMarked
  | clearChan e _ =>
    exact marked.clear _ _ ((setHop_markedForClose ..).trans marked.isMarked) (by simp)
  | clearDelay _ isOr => exact marked.clear _ _ marked.isMarked (by simp)
  | attach edge isOp first
  | acceptDirect chan cell e fromstream env isOp first
  | acceptDelayed queued copy chan cell e fromstream env t isOp first
  | fireGone e t now scheduleNow armed isOp fires first
  | release moved e t next chan now scheduleNow armed isOp fires first
  | popFailed e chan cell rest isOp first
  | popWritten e chan cell rest isOp first
  | truncate chan isOp first
  | connect chan circId isOp first
  | unlink e isOp first => exact absurd first notFirst

/-- An open or_circuit before it is marked. -/
structure Accounted (life : Life) : Prop where
  isOr : life.circ.magic = .orCircuit
  isOpen : life.circ.markedForClose = false
  plain : ∀ event ∈ life.history, Plain event
  order : OrderInv life

theorem path_marked (path : ReflTransGen (LifeStep cfg r op c) life final)
    (live : lifeOf r c = some life) (noTruncate : op ≠ .truncate c) (accounted : Accounted life) :
    Accounted final ∨ ∃ snap, Marked c snap final := by
  have wasOpen : ∀ first, lifeOf r c = some first → first.circ.markedForClose = false := by
    intro first isFirst
    rw [live, Option.some.injEq] at isFirst
    rw [← isFirst]
    exact accounted.isOpen
  induction path with
  | refl => exact Or.inl accounted
  | @tail middle last _ step reached =>
    rcases reached with open_ | ⟨snap, marked⟩
    · have order := lifeStep_order cfg r op c middle last step open_.order
      have magic := (lifeStep_keeps cfg r op c middle last step).magic.trans open_.isOr
      cases isMarked : last.circ.markedForClose with
      | false =>
        have plain := lifeStep_plain cfg r op c middle last step noTruncate
          (fun _ => open_.plain) isMarked
        exact Or.inl ⟨magic, isMarked, plain, order⟩
      | true =>
        obtain ⟨before, result, history, sameMagic, isOpen, lines⟩ :=
          lifeStep_marks cfg r op c middle last step open_.isOpen isMarked
        refine Or.inr ⟨before.circ, ?_⟩
        rw [result]
        refine marked_of_markForClose cfg c before (sameMagic.trans open_.isOr) isOpen
          (history ▸ open_.plain) (fun d => ?_)
        rw [lines d]
        exact open_.order.conserved open_.isOpen d
    · exact Or.inr ⟨snap, lifeStep_marked cfg r op c snap middle last step wasOpen marked⟩

/-! ## The account -/

/-- The account of one direction of a circuit that has just been marked. -/
theorem Marked.account {c : CircPtr} {life : Life} (marked : Marked c snap life)
    (d : CellDirection) :
    (acceptedOf d life.history).length = (writtenOf d life.history).length +
        (failedOf d life.history).length + reportedOf d life.history +
        (snap.hop d).delayQueue.length ∧
      ∀ circ, Event.markForClose c circ ∈ life.history ↔ circ = snap := by
  obtain ⟨plain, sync, cleared, history, isPlain, reports, isSync, isCleared, law⟩ := marked.history
  have silent : ∀ events : List Event,
      (∀ event ∈ events, acceptedBy d event = [] ∧ writtenBy d event = [] ∧ failedBy d event = []) →
      acceptedOf d events = [] ∧ writtenOf d events = [] ∧ failedOf d events = [] := by
    intro events quiet
    exact ⟨List.flatMap_eq_nil_iff.mpr (fun event member => (quiet event member).1),
      List.flatMap_eq_nil_iff.mpr (fun event member => (quiet event member).2.1),
      List.flatMap_eq_nil_iff.mpr (fun event member => (quiet event member).2.2)⟩
  have syncSilent := silent sync (fun event member => by
    obtain ⟨_, _, _, _, rfl⟩ := isSync event member
    exact ⟨rfl, rfl, rfl⟩)
  have clearedSilent := silent cleared (fun event member => by
    obtain ⟨_, _, rfl⟩ := isCleared event member
    exact ⟨rfl, rfl, rfl⟩)
  have markSilent := silent [.markForClose c snap] (fun event member => by
    rw [List.mem_singleton.mp member]
    exact ⟨rfl, rfl, rfl⟩)
  have clearedReports : reportedOf d cleared = 0 := by
    refine List.sum_eq_zero (fun count member => ?_)
    obtain ⟨event, isEvent, rfl⟩ := List.mem_map.mp member
    obtain ⟨_, _, rfl⟩ := isCleared event isEvent
    rfl
  have markReports : reportedOf d [.markForClose c snap] = 0 := rfl
  constructor
  · have counted := congrArg List.length (law d)
    rw [List.length_append, List.length_append, poppedOf_length] at counted
    rw [history]
    simp only [acceptedOf_append, writtenOf_append, failedOf_append, reportedOf_append,
      syncSilent, clearedSilent, markSilent, clearedReports, markReports, reports d,
      plain_reportedOf d plain isPlain, List.append_nil]
    omega
  · intro circ
    rw [history]
    constructor
    · intro member
      simp only [List.mem_append, List.mem_singleton] at member
      rcases member with ((inPlain | inSync) | isMark) | inCleared
      · exact (isPlain _ inPlain).elim
      · obtain ⟨_, _, _, _, eq⟩ := isSync _ inSync
        cases eq
      · exact (Event.markForClose.inj isMark).2
      · obtain ⟨_, _, eq⟩ := isCleared _ inCleared
        cases eq
    · rintro rfl
      simp

theorem failedOf_history :
    failedOf d (history c log) = [] ↔ ∀ cell, Event.writeFailed c d cell ∉ log := by
  constructor
  · intro none cell member
    have quiet := List.flatMap_eq_nil_iff.mp none (.writeFailed c d cell)
      (List.mem_filter.mpr ⟨member, by simp [eventCircuit]⟩)
    simp [failedBy] at quiet
  · intro none
    refine List.flatMap_eq_nil_iff.mpr (fun event member => ?_)
    obtain ⟨inLog, own⟩ := List.mem_filter.mp member
    cases event with
    | writeFailed c' e cell =>
      have sameCircuit : c' = c := by simpa [eventCircuit] using own
      by_cases same : e = d
      · rw [sameCircuit, same] at inLog
        exact absurd inLog (none cell)
      · simp [failedBy, same]
    | _ => rfl

theorem mem_history_markForClose :
    Event.markForClose c circ ∈ history c log ↔ Event.markForClose c circ ∈ log := by
  simp [history, eventCircuit]

end

/-- In every run without a TRUNCATE of the circuit, at the step that marks an open
or_circuit: the cells accepted for a direction are as many as those written and
those reported as written exactly when the delay queue of that direction is empty
as the circuit is marked and no write of a cell of that direction has failed. -/
theorem accepted_eq_written_iff (cfg : Config) (ts : List (Transition Relay Op)) (r : Relay)
    (run : RelayRun cfg ts r) (x : Transition Relay Op) (member : x ∈ ts) (c : CircPtr)
    (noTruncate : ∀ y ∈ ts, y.input ≠ .truncate c) (before after : Circuit)
    (alive : x.pre.circuits c = some before) (reached : x.post.circuits c = some after)
    (isOr : before.magic = .orCircuit) (wasOpen : before.markedForClose = false)
    (isMarked : after.markedForClose = true) (d : CellDirection) :
    (acceptedOf d (history c x.post.log)).length =
        (writtenOf d (history c x.post.log)).length + reportedOf d (history c x.post.log) ↔
      (∀ cell, Event.writeFailed c d cell ∉ x.post.log) ∧
        ∀ circ, Event.markForClose c circ ∈ x.post.log → (circ.hop d).delayQueue = [] := by
  obtain ⟨earlier, later, split, earlierRun⟩ := run.prefix_of_mem x member
  have live := lifeOf_of_circuits alive
  have accounted : Accounted ⟨history c x.pre.log, before⟩ :=
    ⟨isOr, wasOpen, run_plain earlierRun c (fun y inEarlier => noTruncate y (by
      rw [split]
      exact List.mem_append_left _ inEarlier)) _ live wasOpen, run_order earlierRun c _ live⟩
  have path := step_path x.post (run.step_of_mem x member) (run_fresh earlierRun) c _ _ live
    (lifeOf_of_circuits reached)
  rcases path_marked cfg x.pre x.input c _ _ path live (noTruncate x member) accounted with
    still | ⟨snap, marked⟩
  · rw [show after.markedForClose = false from still.isOpen] at isMarked
    cases isMarked
  · obtain ⟨account, snapshot⟩ := marked.account d
    rw [← failedOf_history]
    simp only [← mem_history_markForClose, snapshot, forall_eq]
    rw [← List.length_eq_zero_iff, ← List.length_eq_zero_iff]
    dsimp only at account ⊢
    omega

/-- Two delayed cells, of which one is written and one is still held when the
circuit is marked. -/
def markedWhileDelaying : List Op := delayedCells ++ [.mark 0]

theorem markedWhileDelaying_run :
    RelayRun sampleConfig (sampleTrace sampleConfig markedWhileDelaying)
      (sampleRelay sampleConfig markedWhileDelaying) :=
  relayRun_of_admissible sampleConfig markedWhileDelaying (by decide +kernel)

theorem accepted_eq_written_iff_markedWhileDelaying :
    (acceptedOf .inbound (history 0 (sampleRelay sampleConfig markedWhileDelaying).log)).length =
        (writtenOf .inbound (history 0 (sampleRelay sampleConfig markedWhileDelaying).log)).length +
          reportedOf .inbound (history 0 (sampleRelay sampleConfig markedWhileDelaying).log) ↔
      (∀ cell, Event.writeFailed 0 .inbound cell ∉
          (sampleRelay sampleConfig markedWhileDelaying).log) ∧
        ∀ circ, Event.markForClose 0 circ ∈ (sampleRelay sampleConfig markedWhileDelaying).log →
          (circ.hop .inbound).delayQueue = [] := by
  have last : (⟨sampleRelay sampleConfig delayedCells, .mark 0,
      sampleRelay sampleConfig markedWhileDelaying⟩ : Transition Relay Op) ∈
        sampleTrace sampleConfig markedWhileDelaying :=
    List.mem_of_getElem? (i := 6) rfl
  exact accepted_eq_written_iff sampleConfig _ _ markedWhileDelaying_run _ last 0
    (by simp [sampleTrace, markedWhileDelaying, delayedCells, trace]) _ _ rfl rfl rfl rfl rfl
    .inbound

/-- Two cells were accepted, one was written, none is reported. -/
theorem markedWhileDelaying_not_accounted :
    RelayRun sampleConfig (sampleTrace sampleConfig markedWhileDelaying)
        (sampleRelay sampleConfig markedWhileDelaying) ∧
      (∀ y ∈ sampleTrace sampleConfig markedWhileDelaying, y.input ≠ .truncate 0) ∧
      (acceptedOf .outbound (history 0 (sampleRelay sampleConfig markedWhileDelaying).log)).length ≠
        (writtenOf .outbound
            (history 0 (sampleRelay sampleConfig markedWhileDelaying).log)).length +
          reportedOf .outbound (history 0 (sampleRelay sampleConfig markedWhileDelaying).log) :=
  ⟨markedWhileDelaying_run, by simp [sampleTrace, markedWhileDelaying, delayedCells, trace],
    by decide +kernel⟩

end RendezMix.Guarantees
