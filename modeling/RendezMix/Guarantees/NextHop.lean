import Mathlib
import RendezMix.Guarantees.CellOrder

/-!
# Cells and the next hop they were packed for

A TRUNCATE clears the channel queue towards the old next hop, but not the delay
queue: a cell that is still delayed is later released, packed with the old
circuit id, to the next hop of a later EXTEND. Cells reach only the next hop
they were accepted for as long as no circuit gets a next hop while its outbound
delay queue holds a cell.
-/
namespace RendezMix.Guarantees
open Source Library.Runs

/-- The acceptance that a released or written outbound cell must have behind it:
the same copy, for the channel and circuit id of that moment. -/
def neededAcceptance : Event → Option Event
  | .released c .outbound chan circId _ cell => some (.accepted c .outbound chan circId cell)
  | .written c .outbound chan circId cell => some (.accepted c .outbound chan circId cell)
  | _ => none

/-- Every cell released or written outbound was accepted for the next hop that
the circuit had then. -/
def ForNextHop (events : List Event) : Prop :=
  ∀ event ∈ events, ∀ acceptance ∈ neededAcceptance event, acceptance ∈ events

instance (events : List Event) : Decidable (ForNextHop events) :=
  inferInstanceAs (Decidable (∀ _ ∈ _, ∀ _ ∈ _, _))

/-- Events that need no acceptance. -/
def Harmless (events : List Event) : Prop := ∀ event ∈ events, neededAcceptance event = none

theorem forNextHop_append (events more : List Event) (before : ForNextHop events)
    (added : ∀ event ∈ more, ∀ acceptance ∈ neededAcceptance event, acceptance ∈ events ++ more) :
    ForNextHop (events ++ more) := by
  intro event member acceptance needed
  rcases List.mem_append.mp member with earlier | new
  · exact List.mem_append_left more (before event earlier acceptance needed)
  · exact added event new acceptance needed

theorem forNextHop_harmless (events more : List Event) (before : ForNextHop events)
    (harmless : Harmless more) : ForNextHop (events ++ more) := by
  refine forNextHop_append events more before (fun event member acceptance needed => ?_)
  rw [harmless event member] at needed
  cases needed

/-- What holds of an or_circuit as long as every next hop finds the outbound
delay queue empty. -/
structure NextHopInv (c : CircPtr) (life : Life) : Prop where
  /-- Queued cells were accepted for the present next hop. -/
  queued : ∀ chan, life.circ.n.chan = some chan → ∀ cell ∈ life.circ.held .outbound,
    Event.accepted c .outbound chan life.circ.n.circId cell ∈ life.history
  /-- An open circuit without a next hop has no cells queued for one. -/
  idle : life.circ.markedForClose = false → life.circ.n.chan = none → life.circ.n.chanCells = []
  sent : ForNextHop life.history

variable {c : CircPtr} {life : Life} (cfg : Config)

/-- A change that keeps the next hop, holds no new cell and sends none. -/
theorem NextHopInv.extend {life final : Life} (inv : NextHopInv c life) (events : List Event)
    (past : final.history = life.history ++ events) (harmless : Harmless events)
    (keeps : Keeps life.circ final.circ) (sameChan : final.circ.n.chan = life.circ.n.chan)
    (sameId : final.circ.n.circId = life.circ.n.circId)
    (held : ∀ cell ∈ final.circ.held .outbound, cell ∈ life.circ.held .outbound)
    (idle : life.circ.n.chan = none → life.circ.n.chanCells = [] → final.circ.n.chanCells = []) :
    NextHopInv c final := by
  refine ⟨?_, ?_, ?_⟩
  · intro chan hasChan cell member
    rw [sameId, past]
    rw [sameChan] at hasChan
    exact List.mem_append_left events (inv.queued chan hasChan cell (held cell member))
  · intro isOpen noChan
    rw [sameChan] at noChan
    exact idle noChan (inv.idle (keeps.isOpen isOpen) noChan)
  · rw [past]
    exact forNextHop_harmless _ _ inv.sent harmless

section

variable (inv : NextHopInv c life) (events : List Event) (hop : Hop)

include inv

theorem NextHopInv.inbound (harmless : Harmless events) :
    NextHopInv c (life.setHop events .inbound hop) :=
  inv.extend events rfl harmless (keeps_setHop life.circ .inbound hop) rfl rfl
    (fun _ member => member) (fun _ empty => empty)

/-- Changes to the outbound direction that keep the next hop. -/
theorem NextHopInv.outbound (harmless : Harmless events) (sameChan : hop.chan = life.circ.n.chan)
    (sameId : hop.circId = life.circ.n.circId)
    (held : ∀ cell ∈ hop.chanCells ++ hop.delayQueue, cell ∈ life.circ.held .outbound)
    (idle : life.circ.n.chan = none → life.circ.n.chanCells = [] → hop.chanCells = []) :
    NextHopInv c (life.setHop events .outbound hop) :=
  inv.extend events rfl harmless (keeps_setHop life.circ .outbound hop) sameChan sameId held idle

theorem NextHopInv.schedule (d : CellDirection) (now : ClockReading) (t : TimerPtr) :
    NextHopInv c (life.schedule c d now t) := by
  unfold Life.schedule
  split
  · exact inv
  · cases d with
    | inbound => exact inv.inbound _ _ (by simp [Harmless, neededAcceptance])
    | outbound =>
      exact inv.outbound _ _ (by simp [Harmless, neededAcceptance]) rfl rfl
        (fun _ member => member) (fun _ empty => empty)

theorem NextHopInv.blocked (chan : ChanPtr) (block : Bool) (streamId : UInt16) :
    NextHopInv c (life.record [] (life.circ.setStreamsBlocked chan block streamId)) := by
  obtain ⟨flag, hop⟩ := setStreamsBlocked_hop life.circ chan block streamId .outbound
  have same : (life.circ.setStreamsBlocked chan block streamId).n =
      { life.circ.n with streamsBlocked := flag } := hop
  refine inv.extend [] rfl (by simp [Harmless]) (keeps_setStreamsBlocked ..) ?_ ?_ ?_ ?_
  · simp only [Life.record, same]
  · simp only [Life.record, same]
  · intro cell member
    simpa [Life.record, Circuit.held, Circuit.hop, same] using member
  · intro _ empty
    simpa only [Life.record, same] using empty

end

theorem harmless_sync (c : CircPtr) (circ : Circuit) (d : CellDirection) :
    Harmless (circuitSynchronizeWrittenOrBandwidth cfg c circ d) := by
  unfold circuitSynchronizeWrittenOrBandwidth Harmless
  split
  · simp
  · simp [neededAcceptance]

theorem harmless_append (first second : List Event) (harmless : Harmless first)
    (also : Harmless second) : Harmless (first ++ second) := by
  intro event member
  exact (List.mem_append.mp member).elim (harmless event) (also event)

theorem forNextHop_markForClose (c : CircPtr) (life : Life) (sent : ForNextHop life.history) :
    ForNextHop (life.markForClose cfg c).history := by
  unfold Life.markForClose
  split
  · exact sent
  · refine forNextHop_harmless _ _ sent ?_
    exact harmless_append _ _ (harmless_append _ _ (harmless_sync cfg c life.circ .outbound)
      (harmless_sync cfg c life.circ .inbound)) (by simp [Harmless, neededAcceptance])

theorem mem_markForClose (c : CircPtr) (life : Life) (event : Event)
    (member : event ∈ life.history) : event ∈ (life.markForClose cfg c).history := by
  unfold Life.markForClose
  split
  · exact member
  · exact List.mem_append_left _ member

theorem NextHopInv.markForClose (inv : NextHopInv c life) (cfg : Config) :
    NextHopInv c (life.markForClose cfg c) := by
  have hop : (life.markForClose cfg c).circ.n = life.circ.n :=
    Life.markForClose_hop cfg c life .outbound
  have keeps : Keeps life.circ (life.markForClose cfg c).circ :=
    Keeps.markForClose ⟨rfl, rfl, rfl, id⟩ cfg c
  refine ⟨?_, ?_, forNextHop_markForClose cfg c life inv.sent⟩
  · intro chan hasChan cell member
    rw [hop] at hasChan ⊢
    refine mem_markForClose cfg c life _ (inv.queued chan hasChan cell ?_)
    simpa only [Circuit.held, Life.markForClose_hop] using member
  · intro isOpen noChan
    rw [hop] at noChan ⊢
    exact inv.idle (keeps.isOpen isOpen) noChan

theorem append_chan (r : Relay) (c : CircPtr) (life : Life) (chan : ChanPtr) (cell : Cell)
    (d : CellDirection) (fromstream : UInt16) (env : AppendEnv)
    (enabled : Enabled cfg r (.append c chan cell d fromstream env))
    (first : lifeOf r c = some life) : (life.circ.hop d).chan = some chan := by
  obtain ⟨⟨circ, alive, hasChan, _⟩, _⟩ := enabled
  have same : r.circuits c = some circ := alive
  rw [live_of_lifeOf first, Option.some.injEq] at same
  rw [same]
  exact hasChan

section

variable (inv : NextHopInv c life) (d : CellDirection) (chan : ChanPtr)

include inv

/-- Queueing an accepted copy. -/
theorem NextHopInv.accept (copy : PackedCell) (hop : Hop)
    (hasChan : (life.circ.hop d).chan = some chan) (sameChan : hop.chan = (life.circ.hop d).chan)
    (sameId : hop.circId = (life.circ.hop d).circId)
    (held : ∀ cell ∈ hop.chanCells ++ hop.delayQueue,
      cell ∈ life.circ.held d ∨ cell = copy) :
    NextHopInv c (life.setHop [.accepted c d chan (life.circ.hop d).circId copy] d hop) := by
  have harmless : Harmless [.accepted c d chan (life.circ.hop d).circId copy] := by
    simp [Harmless, neededAcceptance]
  cases d with
  | inbound => exact inv.inbound _ hop harmless
  | outbound =>
    refine ⟨?_, ?_, forNextHop_harmless _ _ inv.sent harmless⟩
    · intro chan' hasChan' cell member
      have sameCurrent : some chan' = some chan := by
        rw [← hasChan, ← sameChan]
        exact hasChan'.symm
      cases sameCurrent
      have idEq : hop.circId = life.circ.n.circId := sameId
      change Event.accepted c .outbound chan hop.circId cell ∈ _
      rw [idEq]
      rcases held cell member with old | new
      · exact List.mem_append_left _ (inv.queued chan hasChan cell old)
      · rw [new]
        exact List.mem_append_right _ (List.mem_singleton.mpr rfl)
    · intro _ noChan
      have gone : hop.chan = none := noChan
      rw [sameChan, hasChan] at gone
      cases gone

theorem NextHopInv.pop (event : Event) (cell : PackedCell) (rest : CellQueue)
    (head : (life.circ.hop d).chanCells = cell :: rest)
    (accepted : ∀ acceptance ∈ neededAcceptance event, acceptance ∈ life.history) :
    NextHopInv c (life.setHop [event] d { life.circ.hop d with chanCells := rest }) := by
  have sent : ForNextHop (life.history ++ [event]) := by
    refine forNextHop_append _ _ inv.sent (fun added member acceptance needed => ?_)
    rw [List.mem_singleton.mp member] at needed
    exact List.mem_append_left _ (accepted acceptance needed)
  cases d with
  | inbound =>
    refine ⟨?_, inv.idle, sent⟩
    intro chan hasChan queued member
    exact List.mem_append_left _ (inv.queued chan hasChan queued member)
  | outbound =>
    have outHead : life.circ.n.chanCells = cell :: rest := head
    refine ⟨?_, ?_, sent⟩
    · intro chan hasChan queued member
      have before : queued ∈ life.circ.held .outbound := by
        change queued ∈ life.circ.n.chanCells ++ life.circ.n.delayQueue
        rw [outHead]
        exact List.mem_cons_of_mem cell member
      exact List.mem_append_left _ (inv.queued chan hasChan queued before)
    · intro isOpen noChan
      have empty := inv.idle isOpen noChan
      rw [outHead] at empty
      cases empty

theorem NextHopInv.release (now : Timeval) (hasChan : (life.circ.hop d).chan = some chan) :
    NextHopInv c (life.setHop
      (((life.circ.hop d).readyCells now).map
        (.released c d chan (life.circ.hop d).circId now)) d
      { (life.circ.hop d).releaseReady now with delayTimer := none }) := by
  cases d with
  | inbound => exact inv.inbound _ _ (by simp [Harmless, neededAcceptance])
  | outbound =>
    have split := releaseLoop_split now 0 life.circ.n.delayQueue
    refine ⟨?_, ?_, ?_⟩
    · intro chan' hasChan' cell member
      have before : cell ∈ life.circ.held .outbound := by
        change cell ∈ life.circ.n.chanCells ++ life.circ.n.delayQueue
        rw [split, ← List.append_assoc]
        exact member
      exact List.mem_append_left _ (inv.queued chan' hasChan' cell before)
    · intro _ noChan
      have gone : life.circ.n.chan = none := noChan
      rw [show life.circ.n.chan = some chan from hasChan] at gone
      cases gone
    · refine forNextHop_append _ _ inv.sent (fun event member acceptance needed => ?_)
      obtain ⟨cell, moved, rfl⟩ := List.mem_map.mp member
      have before : cell ∈ life.circ.held .outbound := by
        change cell ∈ life.circ.n.chanCells ++ life.circ.n.delayQueue
        rw [split]
        exact List.mem_append_right _ (List.mem_append_left _ moved)
      have accepted := inv.queued chan hasChan cell before
      simp only [neededAcceptance, Option.mem_def, Option.some.injEq] at needed
      rw [← needed]
      exact List.mem_append_left _ accepted

end

/-- The circuit that an operation gives a next hop. -/
def connectTarget : Op → Option CircPtr
  | .connect c _ _ => some c
  | _ => none

/-- No circuit gets a next hop while its outbound delay queue holds a cell. -/
def ConnectsEmpty (x : Transition Relay Op) : Prop :=
  ∀ c ∈ connectTarget x.input, ∀ circ ∈ x.pre.circuits c, circ.n.delayQueue = []

instance (x : Transition Relay Op) : Decidable (ConnectsEmpty x) :=
  inferInstanceAs (Decidable (∀ _ ∈ _, _))

section

variable (x : Transition Relay Op)

theorem connectsEmpty_queue (good : ConnectsEmpty x) (c : CircPtr) (chan : ChanPtr)
    (circId : UInt32) (isOp : x.input = .connect c chan circId) (life : Life)
    (first : lifeOf x.pre c = some life) : life.circ.n.delayQueue = [] := by
  have target : c ∈ connectTarget x.input := by
    rw [isOp]
    rfl
  exact good c target life.circ (live_of_lifeOf first)

theorem lifeStep_nextHop (c : CircPtr) (life final : Life) (enabled : Enabled cfg x.pre x.input)
    (step : LifeStep cfg x.pre x.input c life final) (good : ConnectsEmpty x)
    (isOr : life.circ.magic = .orCircuit) (inv : NextHopInv c life) : NextHopInv c final := by
  cases step with
  | attach edge isOp first =>
    exact inv.extend [] rfl (by simp [Harmless]) ⟨rfl, rfl, rfl, id⟩ rfl rfl
      (fun _ member => member) (fun _ empty => empty)
  | acceptDirect chan cell d fromstream env isOp first isOpen room direct =>
    have hasChan := append_chan cfg x.pre c life chan cell d fromstream env (isOp ▸ enabled) first
    refine inv.accept d chan _ _ hasChan rfl rfl (fun queued member => ?_)
    simp only [List.mem_append, List.mem_singleton] at member
    simp only [Circuit.held, List.mem_append]
    tauto
  | acceptDelayed queued copy chan cell d fromstream env t isOp first isOpen room delayed copyEq
      queuedEq =>
    have hasChan := append_chan cfg x.pre c life chan cell d fromstream env (isOp ▸ enabled) first
    have enqueued : NextHopInv c queued := by
      rw [queuedEq]
      refine inv.accept d chan _ _ hasChan rfl rfl (fun held member => ?_)
      simp only [List.mem_append, List.mem_singleton] at member
      simp only [Circuit.held, List.mem_append]
      tauto
    split
    · exact enqueued.schedule d env.scheduleNow t
    · exact enqueued
  | fireGone d t now scheduleNow armed isOp fires first isOpen _ gone =>
    cases d with
    | inbound => exact inv.inbound _ _ (by simp [Harmless])
    | outbound =>
      exact inv.outbound _ _ (by simp [Harmless]) rfl rfl (fun _ member => member)
        (fun _ empty => empty)
  | release moved d t next chan now scheduleNow armed isOp fires first isOpen _ hasChan movedEq =>
    rw [movedEq]
    exact (inv.release d chan now.val hasChan).schedule d scheduleNow next
  | popFailed d chan cell rest isOp first dir head =>
    refine inv.pop d _ cell rest head (fun acceptance needed => ?_)
    simp [neededAcceptance] at needed
  | popWritten d chan cell rest isOp first dir head =>
    refine inv.pop d _ cell rest head (fun acceptance needed => ?_)
    cases d with
    | inbound => simp [neededAcceptance] at needed
    | outbound =>
      have hasChan : life.circ.n.chan = some chan := by
        by_contra other
        rw [Circuit.directionOf, if_neg other] at dir
        cases dir
      have before : cell ∈ life.circ.held .outbound := by
        change cell ∈ life.circ.n.chanCells ++ life.circ.n.delayQueue
        rw [show life.circ.n.chanCells = cell :: rest from head]
        exact List.mem_cons_self
      simp only [neededAcceptance, Option.mem_def, Option.some.injEq] at needed
      rw [← needed]
      exact inv.queued chan hasChan cell before
  | unblock d chan isOp dir blocked low => exact inv.blocked chan false 0
  | block d chan cell fromstream env streamId isOp => exact inv.blocked chan true streamId
  | mark => exact inv.markForClose cfg
  | clearChan d marked =>
    cases d with
    | inbound => exact inv.inbound _ _ (by simp [Harmless, neededAcceptance])
    | outbound =>
      exact inv.outbound _ _ (by simp [Harmless, neededAcceptance]) rfl rfl
        (fun _ member => List.mem_append_right _ member) (fun _ _ => rfl)
  | clearDelay marked _ =>
    refine inv.extend _ rfl (by simp [Harmless, neededAcceptance]) ⟨rfl, rfl, rfl, id⟩ rfl rfl
      (fun cell member => ?_) (fun _ empty => empty)
    have queue : cell ∈ life.circ.n.chanCells ++ [] := member
    rw [List.append_nil] at queue
    exact List.mem_append_left _ queue
  | truncate chan isOp first isOpen _ hasChan =>
    refine ⟨?_, fun _ _ => rfl, ?_⟩
    · intro chan' hasChan'
      cases hasChan'
    · exact forNextHop_harmless _ _ inv.sent (harmless_append _ _
        (harmless_sync cfg c life.circ .outbound) (by simp [Harmless, neededAcceptance]))
  | connect chan circId isOp first isOpen noChan allowed =>
    have delayed := connectsEmpty_queue x good c chan circId isOp life first
    have empty := inv.idle isOpen noChan
    refine ⟨?_, ?_, ?_⟩
    · intro chan' _ cell member
      have nothing : life.circ.n.chanCells ++ life.circ.n.delayQueue = [] := by
        rw [empty, delayed]
        rfl
      have impossible : cell ∈ life.circ.n.chanCells ++ life.circ.n.delayQueue := member
      rw [nothing] at impossible
      cases impossible
    · intro _ gone
      cases gone
    · exact forNextHop_harmless _ _ inv.sent (by simp [Harmless])
  | unlink d isOp first hasChan =>
    cases d with
    | inbound => exact (inv.inbound _ _ (by simp [Harmless])).markForClose cfg
    | outbound =>
      have detached : ForNextHop (life.setHop [] .outbound
          { life.circ.n with chan := none, circId := 0 }).history := by
        exact forNextHop_harmless _ _ inv.sent (by simp [Harmless])
      refine ⟨?_, ?_, forNextHop_markForClose cfg c _ detached⟩
      · intro chan' hasChan'
        have noChan : some chan' = none :=
          hasChan'.symm.trans (congrArg Hop.chan (Life.markForClose_hop cfg c _ .outbound))
        cases noChan
      · intro isOpen
        have marked := Life.markForClose_marks cfg c (life.setHop [] .outbound
          { life.circ.n with chan := none, circId := 0 }) isOr
        cases marked.symm.trans isOpen

theorem created_nextHop (c : CircPtr) (op : Op) (circ : Circuit) (created : Created cfg op circ) :
    NextHopInv c ⟨[], circ⟩ := by
  have fresh : ∃ chan circId, circ.n = Hop.init chan circId :=
    created_hop cfg op circ created .outbound
  obtain ⟨chan, circId, hop⟩ := fresh
  refine ⟨?_, ?_, fun event member => by cases member⟩
  · intro chan' _ cell member
    simp [Circuit.held, Circuit.hop, hop, Hop.init] at member
  · intro _ _
    simp only [hop, Hop.init]

/-- In every run in which circuits get a next hop only while their outbound delay
queue is empty: whatever is released or written outbound on an or_circuit was
accepted for the next hop and circuit id that the circuit had at that moment. -/
theorem no_stale_cell_of_connectsEmpty (cfg : Config) (ts : List (Transition Relay Op))
    (r : Relay) (run : RelayRun cfg ts r) (good : ∀ x ∈ ts, ConnectsEmpty x) (c : CircPtr)
    (circ : Circuit) (live : r.circuits c = some circ) (isOr : circ.magic = .orCircuit) :
    ForNextHop (history c r.log) := by
  have invariant : ∀ c life, lifeOf r c = some life →
      life.circ.magic = .orCircuit → NextHopInv c life := by
    refine run_life run (fun c op circ created _ => created_nextHop cfg c op circ created) ?_
    intro x member c life final step held isOr
    have wasOr : life.circ.magic = .orCircuit :=
      (lifeStep_keeps cfg x.pre x.input c life final step).magic.symm.trans isOr
    exact lifeStep_nextHop cfg x c life final (run.step_of_mem x member).1 step (good x member)
      wasOr (held wasOr)
  exact (invariant c _ (lifeOf_of_circuits live) isOr).sent

theorem no_stale_cell_of_connectsEmpty_delayedCells :
    ForNextHop (history 0 (sampleRelay sampleConfig delayedCells).log) :=
  no_stale_cell_of_connectsEmpty sampleConfig _ _ delayedCells_run (by decide +kernel) 0 _ rfl rfl

/-- A cell is delayed towards one next hop, the circuit is truncated and extended
to another, and then the timer fires. -/
def staleCell : List Op :=
  [.createOr 1 7 (some samplePolicy), .connect 0 2 9,
    .append 0 2 (sampleCell 9) .outbound 0 (sampleEnv 0 5000), .truncate 0, .connect 0 3 11,
    .fire 3 (clockAt 5000) (clockAt 5000), .flush 0 3 true]

/-- The cell packed for circuit id 9 on channel 2 is released, and written, to
channel 3. -/
theorem staleCell_not_forNextHop :
    RelayRun sampleConfig (sampleTrace sampleConfig staleCell)
        (sampleRelay sampleConfig staleCell) ∧
      (∃ circ ∈ (sampleRelay sampleConfig staleCell).circuits 0, circ.magic = .orCircuit) ∧
      ¬ ForNextHop (history 0 (sampleRelay sampleConfig staleCell).log) :=
  ⟨relayRun_of_admissible sampleConfig staleCell (by decide +kernel), by decide +kernel,
    by decide +kernel⟩

end

end RendezMix.Guarantees
