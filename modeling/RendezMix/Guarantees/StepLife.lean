import RendezMix.Guarantees.CircuitLife

/-!
# Every step is made of circuit changes

For each function of the cell path, the life it leaves its circuit with; and
from these, that a step of the relay takes every circuit through `LifeStep`s.
-/
namespace RendezMix.Guarantees
open Source Library.Runs Relation Relay LifeStep

section

variable (t : Option TimerPtr) (c : CircPtr) (d : CellDirection) (chan : ChanPtr)

theorem history_own (events : List Event) (own : ∀ event ∈ events, eventCircuit event = some c) :
    history c events = events :=
  List.filter_eq_self.mpr (fun event member => by simpa using own event member)

theorem history_foreign (other : CircPtr) (events : List Event) (ne : other ≠ c)
    (own : ∀ event ∈ events, eventCircuit event = some c) : history other events = [] := by
  refine List.filter_eq_nil_iff.mpr (fun event member => ?_)
  rw [own event member]
  simpa using ne.symm

/-- Circuit `c` and its history are the same in both states. -/
def SameAt (c : CircPtr) (before after : Relay) : Prop :=
  after.circuits c = before.circuits c ∧ history c after.log = history c before.log

theorem SameAt.refl (r : Relay) : SameAt c r r := ⟨rfl, rfl⟩

theorem SameAt.trans {c : CircPtr} {before middle after : Relay} (first : SameAt c before middle)
    (second : SameAt c middle after) : SameAt c before after :=
  ⟨second.1.trans first.1, second.2.trans first.2⟩

theorem SameAt.lifeOf_eq {c : CircPtr} {before after : Relay} (same : SameAt c before after) :
    lifeOf after c = lifeOf before c := by
  unfold lifeOf
  rw [same.1, same.2]

/-- Between `r` and `after` only circuit `c` changed, and it is now `life`. -/
structure Rewrites (r after : Relay) (c : CircPtr) (life : Life) : Prop where
  own : lifeOf after c = some life
  others : ∀ other, other ≠ c → SameAt other r after
  brk : r.brk ≤ after.brk

theorem Rewrites.trans {r middle after : Relay} {c : CircPtr} {first second : Life}
    (before : Rewrites r middle c first) (next : Rewrites middle after c second) :
    Rewrites r after c second :=
  ⟨next.own, fun other ne => (before.others other ne).trans (next.others other ne),
    before.brk.trans next.brk⟩

/-- The general form of a change: a new circuit and some events about it. -/
theorem rewrites_record (r after : Relay) (c : CircPtr) (life : Life) (circ : Circuit)
    (events : List Event) (live : lifeOf r c = some life) (brk : r.brk ≤ after.brk)
    (own : ∀ event ∈ events, eventCircuit event = some c)
    (circuits : after.circuits = Function.update r.circuits c (some circ))
    (log : ∀ other, history other after.log = history other (r.log ++ events)) :
    Rewrites r after c (life.record events circ) := by
  obtain ⟨_, past⟩ := (lifeOf_eq_some r c life).mp live
  refine ⟨?_, fun other ne => ⟨?_, ?_⟩, brk⟩
  · rw [lifeOf_eq_some]
    refine ⟨by simp [circuits, Life.record], ?_⟩
    rw [log, history_append, history_own c events own, ← past]
    rfl
  · rw [circuits, Function.update_of_ne ne]
  · rw [log, history_append, history_foreign c other events ne own, List.append_nil]

theorem rewrites_same (r after : Relay) (c : CircPtr) (life : Life) (live : lifeOf r c = some life)
    (brk : r.brk ≤ after.brk) (same : ∀ other, SameAt other r after) : Rewrites r after c life :=
  ⟨(same c).lifeOf_eq.trans live, fun other _ => same other, brk⟩

theorem fault_sameAt (r : Relay) (kind : Fault) : SameAt c r (r.fault kind) :=
  ⟨rfl, by simp [fault, history, eventCircuit]⟩

section

variable (arg : InfoPtr) (now scheduleNow : ClockReading)

theorem live_of_lifeOf {r : Relay} {c : CircPtr} {life : Life} (live : lifeOf r c = some life) :
    r.circuits c = some life.circ :=
  ((lifeOf_eq_some r c life).mp live).1

/-! ## The functions of the delay timers -/

theorem timerFree_circuits (r : Relay) : (timerFree t r).circuits = r.circuits := by
  unfold timerFree
  split
  · rfl
  · split
    · rfl
    · split
      · rfl
      · rfl

theorem timerFree_history (r : Relay) (c : CircPtr) :
    history c (timerFree t r).log = history c r.log := by
  unfold timerFree
  split
  · rfl
  · split
    · rw [fault, emit_log, history_append]
      simp [history, eventCircuit]
    · split
      · rfl
      · rw [emit_log, history_append]
        simp [history, eventCircuit]

theorem timerFree_brk (r : Relay) : (timerFree t r).brk = r.brk := by
  unfold timerFree
  split
  · rfl
  · split
    · rfl
    · split
      · rfl
      · rfl

theorem scheduleDelayTimer_rewrites (r : Relay) (life : Life) (live : lifeOf r c = some life) :
    Rewrites r (scheduleDelayTimer c d now r) c (life.schedule c d now (r.brk + 1)) := by
  unfold scheduleDelayTimer Life.schedule
  rw [withCircuit_some r c life.circ _ (live_of_lifeOf live)]
  cases queue : (life.circ.hop d).delayQueue with
  | nil =>
    exact rewrites_same r _ c life live le_rfl (fun other => fault_sameAt other r _)
  | cons cell rest =>
    exact rewrites_record r _ c life _ [.armed c d ⟨now.val, timerDelay cell.readyTv now.val⟩]
      live (Nat.le_add_right _ 2) (by simp [eventCircuit]) rfl (fun other => rfl)

theorem delayOrAppendCell_direct (cfg : Config) (copy : PackedCell) (c : CircPtr)
    (chan : ChanPtr) (d : CellDirection) (env : AppendEnv) (r : Relay) (life : Life)
    (live : lifeOf r c = some life) (direct : ¬ life.circ.delays) :
    Rewrites r (delayOrAppendCell cfg copy c chan d env r) c
      (life.setHop [.accepted c d chan (life.circ.hop d).circId copy] d
        { life.circ.hop d with chanCells := (life.circ.hop d).chanCells ++ [copy] }) := by
  unfold delayOrAppendCell
  rw [withCircuit_some r c life.circ _ (live_of_lifeOf live), if_neg direct]
  exact rewrites_record r _ c life _ _ live le_rfl (by simp [eventCircuit]) rfl (fun other => rfl)

theorem delayOrAppendCell_delayed (cfg : Config) (copy : PackedCell) (c : CircPtr)
    (chan : ChanPtr) (d : CellDirection) (env : AppendEnv) (r : Relay) (life queued : Life)
    (ready : PackedCell) (live : lifeOf r c = some life) (delayed : life.circ.delays)
    (readyEq : ready = { copy with
      readyTv := getReadyTimeval cfg life.circ d env.readyNow env.sample })
    (queuedEq : queued = life.setHop [.accepted c d chan (life.circ.hop d).circId ready] d
      { life.circ.hop d with
        lastReadyTv := ready.readyTv
        delayQueue := (life.circ.hop d).delayQueue ++ [ready] }) :
    Rewrites r (delayOrAppendCell cfg copy c chan d env r) c
      (if (life.circ.hop d).delayTimer = none then
        queued.schedule c d env.scheduleNow (r.brk + 1) else queued) := by
  unfold delayOrAppendCell
  rw [withCircuit_some r c life.circ _ (live_of_lifeOf live), if_pos delayed]
  have enqueue : Rewrites r ((r.emit (.accepted c d chan (life.circ.hop d).circId ready)).setCircuit
      c queued.circ) c queued := by
    rw [queuedEq]
    exact rewrites_record r _ c life _ _ live le_rfl (by simp [eventCircuit]) rfl (fun other => rfl)
  rw [queuedEq, readyEq] at enqueue
  rw [queuedEq, readyEq]
  split
  · exact enqueue.trans (scheduleDelayTimer_rewrites c d env.scheduleNow _ _ enqueue.own)
  · exact enqueue

/-- The callback on an open or_circuit whose channel is gone: the timer goes,
the delay queue stays. -/
theorem cellReadyCallback_gone (r : Relay) (life : Life) (info : r.delayInfos arg = some ⟨c, d⟩)
    (live : lifeOf r c = some life) (isOpen : life.circ.markedForClose = false)
    (isOr : life.circ.magic = .orCircuit) (gone : (life.circ.hop d).chan = none) :
    Rewrites r (cellReadyCallback arg now scheduleNow r) c
      (life.setHop [] d { life.circ.hop d with delayTimer := none }) := by
  simp only [cellReadyCallback, info]
  rw [withCircuit_some (r.setDelayInfo arg none) c life.circ _ (live_of_lifeOf live)]
  simp only [isOpen, isOr, gone, Bool.false_eq_true, if_false, ne_eq, not_true_eq_false]
  refine rewrites_record r _ c life _ [] live ?_ (by simp) ?_ (fun other => ?_)
  · rw [setCircuit_brk, timerFree_brk, setDelayInfo_brk]
  · rw [setCircuit_circuits, timerFree_circuits, setDelayInfo_circuits]
  · rw [setCircuit_log, timerFree_history, setDelayInfo_log, List.append_nil]

theorem moveReadyCells_rewrites (now : Timeval) (r before : Relay) (life : Life)
    (live : lifeOf r c = some life) (hop : Hop) (brk : before.brk = r.brk)
    (circuits : before.circuits = Function.update r.circuits c (some (life.circ.setHop d hop)))
    (log : ∀ other, history other before.log = history other r.log) :
    Rewrites r (moveReadyCells c d chan life.circ hop now before) c
      (life.setHop ((hop.readyCells now).map (.released c d chan hop.circId now)) d
        (hop.releaseReady now)) := by
  refine rewrites_record r _ c life _ _ live ?_ (by simp [eventCircuit]) ?_ (fun other => ?_)
  · simp [moveReadyCells, brk]
  · simp [moveReadyCells, circuits]
  · simp only [moveReadyCells, setCircuit_log, emitAll_log, history_append, log]

/-- The callback on an open or_circuit with a channel. -/
theorem cellReadyCallback_release (r : Relay) (life moved : Life)
    (info : r.delayInfos arg = some ⟨c, d⟩) (live : lifeOf r c = some life)
    (isOpen : life.circ.markedForClose = false) (isOr : life.circ.magic = .orCircuit)
    (hasChan : (life.circ.hop d).chan = some chan) (movedEq : moved = life.setHop
      (((life.circ.hop d).readyCells now.val).map
        (.released c d chan (life.circ.hop d).circId now.val)) d
      { (life.circ.hop d).releaseReady now.val with delayTimer := none }) :
    ∃ next, Rewrites r (cellReadyCallback arg now scheduleNow r) c
      (moved.schedule c d scheduleNow next) := by
  simp only [cellReadyCallback, info]
  rw [withCircuit_some (r.setDelayInfo arg none) c life.circ _ (live_of_lifeOf live),
    if_neg (by simp [isOpen]), if_neg (by simp [isOr])]
  split
  · next gone =>
    rw [hasChan] at gone
    cases gone
  · next same =>
    rw [hasChan, Option.some.injEq] at same
    subst same
    have reached := moveReadyCells_rewrites c d chan now.val r
      ((timerFree (life.circ.hop d).delayTimer (r.setDelayInfo arg none)).setCircuit c
        (life.circ.setHop d { life.circ.hop d with delayTimer := none })) life live
      { life.circ.hop d with delayTimer := none }
      (by rw [setCircuit_brk, timerFree_brk, setDelayInfo_brk])
      (by rw [setCircuit_circuits, timerFree_circuits, setDelayInfo_circuits])
      (fun other => by rw [setCircuit_log, timerFree_history, setDelayInfo_log])
    split
    · rw [movedEq]
      exact ⟨_, reached.trans (scheduleDelayTimer_rewrites c d scheduleNow _ _ reached.own)⟩
    · next noneLeft =>
      refine ⟨0, ?_⟩
      have empty : (moved.circ.hop d).delayQueue = [] := by
        have queue : (moved.circ.hop d).delayQueue =
            (Hop.releaseReady now.val { life.circ.hop d with delayTimer := none }).delayQueue := by
          rw [movedEq]
          simp only [Life.setHop, Life.record, Circuit.hop_setHop]
          rfl
        rw [queue]
        exact List.eq_nil_of_length_eq_zero (Nat.eq_zero_of_not_pos noneLeft)
      simp only [Life.schedule, empty]
      rw [movedEq]
      exact reached

/-! ## The functions of the circuit list and the relay queues -/

theorem circuitSynchronize_own (cfg : Config) (c : CircPtr) (circ : Circuit) (d : CellDirection) :
    ∀ event ∈ circuitSynchronizeWrittenOrBandwidth cfg c circ d, eventCircuit event = some c := by
  unfold circuitSynchronizeWrittenOrBandwidth
  split
  · simp
  · simp [eventCircuit]

theorem circuitMarkForClose_stays (cfg : Config) (c : CircPtr) (r : Relay) (circ : Circuit)
    (live : r.circuits c = some circ)
    (stays : circ.markedForClose = true ∨
      (circ.magic = .originCircuit ∧ circ.closeHeld = true)) : circuitMarkForClose cfg c r = r := by
  unfold circuitMarkForClose
  rw [withCircuit_some r c circ _ live]
  split
  · rfl
  · next isOpen =>
    rw [if_pos (stays.resolve_left isOpen)]

end

theorem circuitMarkForClose_rewrites (cfg : Config) (c : CircPtr) (r : Relay) (life : Life)
    (live : lifeOf r c = some life) :
    Rewrites r (circuitMarkForClose cfg c r) c (life.markForClose cfg c) := by
  unfold Life.markForClose
  split
  · next stays =>
    rw [circuitMarkForClose_stays cfg c r life.circ (live_of_lifeOf live) stays]
    exact rewrites_same r r c life live le_rfl (fun other => SameAt.refl other r)
  · next marks =>
    obtain ⟨isOpen, lets⟩ := not_or.mp marks
    unfold circuitMarkForClose
    rw [withCircuit_some r c life.circ _ (live_of_lifeOf live), if_neg isOpen, if_neg lets]
    refine rewrites_record r _ c life _ _ live le_rfl ?_ rfl (fun other => ?_)
    · intro event member
      simp only [List.append_assoc, List.mem_append, List.mem_singleton] at member
      rcases member with outbound | inbound | marked
      · exact circuitSynchronize_own cfg c life.circ .outbound event outbound
      · exact circuitSynchronize_own cfg c life.circ .inbound event inbound
      · rw [marked]
        rfl
    · simp only [setCircuit_log, emit_log, emitAll_log, List.append_assoc]

theorem clearChanCells_rewrites (r : Relay) (life : Life) (live : lifeOf r c = some life) :
    Rewrites r (clearChanCells c d r) c
      (life.setHop [.cleared c d (life.circ.hop d).chanCells] d
        { life.circ.hop d with chanCells := [] }) := by
  unfold clearChanCells
  rw [withCircuit_some r c life.circ _ (live_of_lifeOf live)]
  exact rewrites_record r _ c life _ _ live le_rfl (by simp [eventCircuit]) rfl (fun other => rfl)

theorem freeDelayData_rewrites (r : Relay) (life : Life) (live : lifeOf r c = some life) :
    Rewrites r (freeDelayData c r) c
      (life.record [.cleared c .inbound life.circ.p.delayQueue,
          .cleared c .outbound life.circ.n.delayQueue]
        { life.circ with
          p := { life.circ.p with delayQueue := [], delayTimer := none }
          n := { life.circ.n with delayQueue := [], delayTimer := none } }) := by
  unfold freeDelayData
  rw [withCircuit_some r c life.circ _ (live_of_lifeOf live)]
  refine rewrites_record r _ c life _ _ live ?_ (by simp [eventCircuit]) ?_ (fun other => ?_)
  · simp only [setCircuit_brk, timerFree_brk, emit_brk, le_refl]
  · simp only [setCircuit_circuits, timerFree_circuits, emit_circuits]
  · simp only [setCircuit_log, timerFree_history, emit_log, List.append_assoc,
      List.cons_append, List.nil_append]

theorem circuitSetCircidChan_rewrites (circId : UInt32) (chan : Option ChanPtr) (r : Relay)
    (life : Life) (live : lifeOf r c = some life) :
    Rewrites r (circuitSetCircidChan c d circId chan r) c
      (life.setHop [] d { life.circ.hop d with chan := chan, circId := circId }) := by
  unfold circuitSetCircidChan
  rw [withCircuit_some r c life.circ _ (live_of_lifeOf live)]
  exact rewrites_record r _ c life _ [] live le_rfl (by simp) rfl (fun other => by simp)

theorem setStreamsBlockedOnCirc_rewrites (block : Bool) (streamId : UInt16) (r : Relay)
    (life : Life) (live : lifeOf r c = some life) :
    Rewrites r (setStreamsBlockedOnCirc c chan block streamId r) c
      (life.record [] (life.circ.setStreamsBlocked chan block streamId)) := by
  unfold setStreamsBlockedOnCirc
  rw [withCircuit_some r c life.circ _ (live_of_lifeOf live)]
  exact rewrites_record r _ c life _ [] live le_rfl (by simp) rfl (fun other => by simp)

end

/-! ## Composition -/

/-- From `before` to `after`, every live circuit came from its life in `before`
by changes that the step `op` from `r` may make, and no circuit is new. -/
structure Advances (cfg : Config) (r : Relay) (op : Op) (before after : Relay) : Prop where
  lives : ∀ c final, lifeOf after c = some final →
    ∃ life, lifeOf before c = some life ∧ ReflTransGen (LifeStep cfg r op c) life final
  dead : ∀ c, before.circuits c = none → SameAt c before after
  brk : before.brk ≤ after.brk

variable {cfg : Config} {r : Relay} {op : Op}

theorem Advances.of_sameAt {before after : Relay} (same : ∀ c, SameAt c before after)
    (brk : before.brk ≤ after.brk) : Advances cfg r op before after :=
  ⟨fun c final live => ⟨final, (same c).lifeOf_eq ▸ live, ReflTransGen.refl⟩,
    fun c _ => same c, brk⟩

theorem Advances.refl (before : Relay) : Advances cfg r op before before :=
  Advances.of_sameAt (fun c => SameAt.refl c before) le_rfl

theorem Advances.trans {before middle after : Relay} (first : Advances cfg r op before middle)
    (second : Advances cfg r op middle after) : Advances cfg r op before after := by
  refine ⟨fun c final live => ?_, fun c freed => ?_, first.brk.trans second.brk⟩
  · obtain ⟨life, alive, later⟩ := second.lives c final live
    obtain ⟨start, born, earlier⟩ := first.lives c life alive
    exact ⟨start, born, earlier.trans later⟩
  · have same := first.dead c freed
    exact same.trans (second.dead c (same.1.trans freed))

theorem Advances.of_rewrites {before after : Relay} {c : CircPtr} {life final : Life}
    (live : lifeOf before c = some life) (change : Rewrites before after c final)
    (path : ReflTransGen (LifeStep cfg r op c) life final) : Advances cfg r op before after := by
  refine ⟨fun other last alive => ?_, fun other freed => ?_, change.brk⟩
  · by_cases same : other = c
    · subst same
      rw [change.own, Option.some.injEq] at alive
      subst alive
      exact ⟨life, live, path⟩
    · rw [(change.others other same).lifeOf_eq] at alive
      exact ⟨last, alive, ReflTransGen.refl⟩
  · refine change.others other (fun same => ?_)
    rw [same, live_of_lifeOf live] at freed
    cases freed

theorem Advances.of_change {before after : Relay} {c : CircPtr} {life final : Life}
    (live : lifeOf before c = some life) (change : Rewrites before after c final)
    (step : LifeStep cfg r op c life final) : Advances cfg r op before after :=
  Advances.of_rewrites live change (ReflTransGen.single step)

section

variable (before after : Relay) (c : CircPtr) (chan : ChanPtr) (cell : Cell) (d : CellDirection)
  (fromstream : UInt16) (env : AppendEnv)

theorem fault_advances (kind : Fault) : Advances cfg r op before (before.fault kind) :=
  Advances.of_sameAt (fun c => fault_sameAt c before kind) le_rfl

theorem lifeOf_of_circuits {before : Relay} {c : CircPtr} {circ : Circuit}
    (live : before.circuits c = some circ) :
    lifeOf before c = some ⟨history c before.log, circ⟩ := by
  simp only [lifeOf, live, Option.map_some]

theorem withCircuit_advances (f : Circuit → Relay)
    (advances : ∀ life, lifeOf before c = some life → Advances cfg r op before (f life.circ)) :
    Advances cfg r op before (before.withCircuit c f) := by
  cases live : before.circuits c with
  | none =>
    rw [withCircuit_none before c f live]
    exact fault_advances before _
  | some circ =>
    rw [withCircuit_some before c circ f live]
    exact advances _ (lifeOf_of_circuits live)

theorem circuitMarkForClose_advances :
    Advances cfg r op before (circuitMarkForClose cfg c before) := by
  cases live : before.circuits c with
  | none =>
    rw [circuitMarkForClose, withCircuit_none before c _ live]
    exact fault_advances before _
  | some circ =>
    have alive := lifeOf_of_circuits live
    exact Advances.of_change alive (circuitMarkForClose_rewrites cfg c before _ alive)
      (mark _)

section

variable (life : Life) (circ : Circuit) (streamsBlocked : Bool)

theorem clearChanCells_advances (live : lifeOf before c = some life)
    (marked : life.circ.markedForClose = true) :
    Advances cfg r op before (clearChanCells c d before) :=
  Advances.of_change live (clearChanCells_rewrites c d before life live)
    (clearChan life d marked)

theorem markedCircuitFreeCells_advances :
    Advances cfg r op before (markedCircuitFreeCells c before) := by
  refine withCircuit_advances before c _ (fun life live => ?_)
  split
  · exact Advances.refl before
  · next unmarked =>
    have marked : life.circ.markedForClose = true := by simpa using unmarked
    have cleared := clearChanCells_rewrites c .outbound before life live
    have first : Advances cfg r op before _ :=
      clearChanCells_advances before c .outbound life live marked
    split
    · next isOr =>
      have second := clearChanCells_rewrites c .inbound _ _ cleared.own
      exact first.trans ((clearChanCells_advances _ c .inbound _ cleared.own marked).trans
        (Advances.of_change second.own (freeDelayData_rewrites c _ _ second.own)
          (clearDelay _ marked isOr)))
    · exact first

theorem killCircuit_advances : Advances cfg r op before (killCircuit cfg c before) :=
  (circuitMarkForClose_advances before c).trans (markedCircuitFreeCells_advances _ c)

theorem cellQueuesCheckSize_advances (oomKills : Option (List CircPtr)) :
    Advances cfg r op before (cellQueuesCheckSize cfg oomKills before) := by
  cases oomKills with
  | none => exact Advances.refl before
  | some kills =>
    induction kills generalizing before with
    | nil => exact Advances.refl before
    | cons c rest ih => exact (killCircuit_advances before c).trans (ih _)

theorem blockStreams_advances (fromstream : UInt16) (env : AppendEnv)
    (isOp : op = .append c chan cell d fromstream env) :
    Advances cfg r op before (blockStreams cfg c chan d streamsBlocked fromstream before) := by
  refine withCircuit_advances before c _ (fun life live => ?_)
  dsimp only
  generalize (if life.circ.magic = .orCircuit then (life.circ.hop d).delayQueue.length
    else 0) = delayed
  split
  · exact Advances.of_change live (setStreamsBlockedOnCirc_rewrites c chan true 0 before life live)
      (block life d chan cell fromstream env 0 isOp)
  · split
    · exact Advances.of_change live
        (setStreamsBlockedOnCirc_rewrites c chan true fromstream before life live)
        (block life d chan cell fromstream env fromstream isOp)
    · exact Advances.refl before

theorem cellQueueAppendPackedCopy_advances (isOp : op = .append c chan cell d fromstream env)
    (first : lifeOf r c = some life) (isOpen : life.circ.markedForClose = false)
    (room : (life.circ.hop d).chanCells.length < cfg.maxQueueSize d) :
    Advances cfg r op r (cellQueueAppendPackedCopy cfg c chan cell d env r) := by
  have alive : lifeOf { r with brk := r.brk + 1 } c = some life := first
  have same : Advances cfg r op r { r with brk := r.brk + 1 } :=
    Advances.of_sameAt (fun _ => ⟨rfl, rfl⟩) (Nat.le_add_right _ 1)
  refine same.trans ?_
  by_cases delayed : life.circ.delays
  · exact Advances.of_change alive
      (delayOrAppendCell_delayed cfg _ c chan d env _ life _ _ alive delayed rfl rfl)
      (acceptDelayed life _ _ chan cell d fromstream env _ isOp first isOpen room
        delayed rfl rfl)
  · exact Advances.of_change alive
      (delayOrAppendCell_direct cfg _ c chan d env _ life alive delayed)
      (acceptDirect life chan cell d fromstream env isOp first isOpen room delayed)

/-- What an append does after it has queued the cell. -/
def appendRest (cfg : Config) (c : CircPtr) (chan : ChanPtr) (d : CellDirection)
    (streamsBlocked : Bool) (fromstream : UInt16) (env : AppendEnv) (queued : Relay) : Relay :=
  let checked := cellQueuesCheckSize cfg env.oomKills queued
  checked.withCircuit c fun closed =>
    if env.oomKills.isSome ∧ closed.markedForClose = true then checked
    else blockStreams cfg c chan d streamsBlocked fromstream checked

theorem appendRest_advances (fromstream : UInt16) (env : AppendEnv) (queued : Relay)
    (isOp : op = .append c chan cell d fromstream env) :
    Advances cfg r op queued (appendRest cfg c chan d streamsBlocked fromstream env queued) := by
  refine (cellQueuesCheckSize_advances queued env.oomKills).trans ?_
  refine withCircuit_advances _ c _ (fun closed alive => ?_)
  split
  · exact Advances.refl _
  · exact blockStreams_advances _ c chan cell d streamsBlocked fromstream env isOp

/-- An append to an open circuit with room queues the cell and goes on. -/
theorem append_eq_appendRest (alive : r.circuits c = some circ)
    (isOpen : circ.markedForClose = false)
    (room : (circ.hop d).chanCells.length < cfg.maxQueueSize d) :
    appendCellToCircuitQueue cfg c chan cell d fromstream env r =
      appendRest cfg c chan d (circ.hop d).streamsBlocked fromstream env
        (cellQueueAppendPackedCopy cfg c chan cell d env r) := by
  unfold appendCellToCircuitQueue
  rw [withCircuit_some r c circ _ alive, if_neg (by simp [isOpen]), if_neg (by omega)]
  rfl

theorem append_advances (isOp : op = .append c chan cell d fromstream env) :
    Advances cfg r op r (appendCellToCircuitQueue cfg c chan cell d fromstream env r) := by
  cases alive : r.circuits c with
  | none =>
    rw [appendCellToCircuitQueue, withCircuit_none r c _ alive]
    exact fault_advances r _
  | some circ =>
    have live := lifeOf_of_circuits alive
    cases marked : circ.markedForClose with
    | true =>
      rw [appendCellToCircuitQueue, withCircuit_some r c circ _ alive, if_pos marked]
      exact Advances.refl r
    | false =>
      by_cases room : (circ.hop d).chanCells.length < cfg.maxQueueSize d
      · rw [append_eq_appendRest c chan cell d fromstream env circ alive marked room]
        exact (cellQueueAppendPackedCopy_advances c chan cell d fromstream env _ isOp live marked
          room).trans (appendRest_advances c chan cell d _ fromstream env _ isOp)
      · rw [appendCellToCircuitQueue, withCircuit_some r c circ _ alive,
          if_neg (by simp [marked]), if_pos (by omega)]
        exact circuitMarkForClose_advances r c

/-- The callback reaches the circuit that its argument block names. -/
theorem cellReadyCallback_advances (t : TimerPtr) (arg : InfoPtr) (armed : Armed)
    (now scheduleNow : ClockReading) (fired : Relay) (isOp : op = .fire t now scheduleNow)
    (allocated : r.timers t = some ⟨arg, some armed⟩) (infos : fired.delayInfos = r.delayInfos)
    (circuits : fired.circuits = r.circuits) (log : fired.log = r.log) :
    Advances cfg r op fired (cellReadyCallback arg now scheduleNow fired) := by
  cases block : fired.delayInfos arg with
  | none =>
    simp only [cellReadyCallback, block]
    exact fault_advances fired _
  | some info =>
    obtain ⟨c, d⟩ := info
    have fires : Fires r c d t armed := ⟨arg, allocated, by rw [← infos, block]⟩
    cases live : fired.circuits c with
    | none =>
      simp only [cellReadyCallback, block]
      rw [withCircuit_none (fired.setDelayInfo arg none) c _ live]
      have same : Advances cfg r op fired (fired.setDelayInfo arg none) :=
        Advances.of_sameAt (fun _ => ⟨rfl, rfl⟩) le_rfl
      exact same.trans (fault_advances _ _)
    | some circ =>
      have alive := lifeOf_of_circuits live
      have first : lifeOf r c = some ⟨history c fired.log, circ⟩ := by
        rw [← alive, lifeOf, lifeOf, circuits, log]
      by_cases returns : circ.markedForClose = true ∨ circ.magic ≠ .orCircuit
      · have same : cellReadyCallback arg now scheduleNow fired = fired.setDelayInfo arg none := by
          simp only [cellReadyCallback, block]
          rw [withCircuit_some (fired.setDelayInfo arg none) c circ _ live]
          split
          · rfl
          · next unmarked => rw [if_pos (returns.resolve_left unmarked)]
        rw [same]
        exact Advances.of_sameAt (fun _ => ⟨rfl, rfl⟩) le_rfl
      · obtain ⟨unmarked, notOrigin⟩ := not_or.mp returns
        have isOpen : circ.markedForClose = false := by simpa using unmarked
        have isOr : circ.magic = .orCircuit := not_not.mp notOrigin
        cases hasChan : (circ.hop d).chan with
        | none =>
          exact Advances.of_change alive
            (cellReadyCallback_gone c d arg now scheduleNow fired _ block alive isOpen isOr hasChan)
            (fireGone _ d t now scheduleNow armed isOp fires first isOpen isOr hasChan)
        | some chan =>
          obtain ⟨next, change⟩ := cellReadyCallback_release c d chan arg now scheduleNow fired
            _ _ block alive isOpen isOr hasChan rfl
          exact Advances.of_change alive change
            (release _ _ d t next chan now scheduleNow armed isOp fires first isOpen
              isOr hasChan rfl)

theorem fireTimer_advances (t : TimerPtr) (now scheduleNow : ClockReading)
    (isOp : op = .fire t now scheduleNow) :
    Advances cfg r op r (fireTimer t now scheduleNow r) := by
  unfold fireTimer
  cases allocated : r.timers t with
  | none => exact Advances.refl r
  | some timer =>
    obtain ⟨arg, pending⟩ := timer
    cases pending with
    | none => exact Advances.refl r
    | some armed =>
      have same : Advances cfg r op r (r.setTimer t (some ⟨arg, none⟩)) :=
        Advances.of_sameAt (fun _ => ⟨rfl, rfl⟩) le_rfl
      refine same.trans ?_
      exact cellReadyCallback_advances t arg armed now scheduleNow _ isOp allocated rfl rfl rfl

theorem directionOf_setHop (d : CellDirection) (hop : Hop) (chan : ChanPtr)
    (same : hop.chan = (circ.hop d).chan) :
    (circ.setHop d hop).directionOf chan = circ.directionOf chan := by
  cases d with
  | outbound => simp only [Circuit.directionOf, Circuit.setHop, same, Circuit.hop]
  | inbound => rfl

end

theorem flush_advances (writeOk : Bool) (isOp : op = .flush c chan writeOk) :
    Advances cfg r op r (channelFlushCircuit cfg c chan writeOk r) := by
  refine withCircuit_advances r c _ (fun life live => ?_)
  dsimp only
  split
  · split
    · exact Advances.refl r
    · exact circuitMarkForClose_advances r c
  · next cell rest head =>
    split
    · next failed =>
      subst failed
      exact Advances.of_change live
        (rewrites_record r _ c life _ [.writeFailed c (life.circ.directionOf chan) cell] live
          le_rfl (by simp [eventCircuit]) rfl (fun other => rfl))
        (popFailed life _ chan cell rest isOp live rfl head)
    · next succeeded =>
      have isOp : op = .flush c chan true := by simpa [succeeded] using isOp
      have change := rewrites_record r
        ((r.setCircuit c (life.circ.setHop (life.circ.directionOf chan)
          { life.circ.hop (life.circ.directionOf chan) with chanCells := rest })).emit
          (.written c (life.circ.directionOf chan) chan
            (life.circ.hop (life.circ.directionOf chan)).circId cell)) c life _
        [.written c (life.circ.directionOf chan) chan
          (life.circ.hop (life.circ.directionOf chan)).circId cell] live le_rfl
        (by simp [eventCircuit]) rfl (fun other => rfl)
      have popped : Advances cfg r op r _ := Advances.of_change live change
        (popWritten life _ chan cell rest isOp live rfl head)
      split
      · next low =>
        have same := directionOf_setHop life.circ (life.circ.directionOf chan)
          { life.circ.hop (life.circ.directionOf chan) with chanCells := rest } chan rfl
        refine popped.trans (Advances.of_change change.own
          (setStreamsBlockedOnCirc_rewrites c chan false 0 _ _ change.own)
          (unblock _ (life.circ.directionOf chan) chan isOp same ?_ ?_
            ⟨life, cell, rest, live, rfl, head, rfl⟩))
        · simpa [Life.record] using low.1
        · simpa [Life.record] using low.2
      · exact popped

theorem circuitClearCellQueue_outbound (r : Relay) (life : Life) (live : lifeOf r c = some life)
    (hasChan : life.circ.n.chan = some chan) :
    Rewrites r (circuitClearCellQueue c chan r) c
      (life.setHop [.cleared c .outbound life.circ.n.chanCells] .outbound
        { life.circ.n with chanCells := [] }) := by
  unfold circuitClearCellQueue
  rw [withCircuit_some r c life.circ _ (live_of_lifeOf live), if_pos hasChan]
  exact clearChanCells_rewrites c .outbound r life live

section

variable (circId : UInt32)

theorem truncateNextHop_rewrites (r : Relay) (life : Life) (live : lifeOf r c = some life)
    (hasChan : life.circ.n.chan = some chan) :
    Rewrites r (truncateNextHop cfg c r) c
      (life.setHop (circuitSynchronizeWrittenOrBandwidth cfg c life.circ .outbound ++
          [.cleared c .outbound life.circ.n.chanCells]) .outbound
        { life.circ.n with chanCells := [], chan := none, circId := 0 }) := by
  unfold truncateNextHop
  rw [withCircuit_some r c life.circ _ (live_of_lifeOf live)]
  split
  · next gone =>
    rw [hasChan] at gone
    cases gone
  · next same =>
    rw [hasChan, Option.some.injEq] at same
    subst same
    have synced := rewrites_record r
      (r.emitAll (circuitSynchronizeWrittenOrBandwidth cfg c life.circ .outbound)) c life life.circ
      _ live le_rfl (circuitSynchronize_own cfg c life.circ .outbound)
      (by rw [emitAll_circuits, ← live_of_lifeOf live, Function.update_eq_self])
      (fun other => rfl)
    have cleared := circuitClearCellQueue_outbound c chan _ _ synced.own hasChan
    have detached := circuitSetCircidChan_rewrites c .outbound 0 none _ _ cleared.own
    have change := (synced.trans cleared).trans detached
    simpa [Life.setHop, Life.record, Circuit.hop, Circuit.setHop] using change

theorem truncate_advances (isOp : op = .truncate c) (enabled : Enabled cfg r op) :
    Advances cfg r op r (truncateNextHop cfg c r) := by
  subst isOp
  obtain ⟨circ, alive, isOr, isOpen⟩ := enabled
  have live := lifeOf_of_circuits alive
  cases hasChan : circ.n.chan with
  | none =>
    have same : truncateNextHop cfg c r = r := by
      unfold truncateNextHop
      rw [withCircuit_some r c circ _ alive]
      simp only [hasChan]
    rw [same]
    exact Advances.refl r
  | some chan =>
    exact Advances.of_change live (truncateNextHop_rewrites c chan r _ live hasChan)
      (truncate _ chan rfl live isOpen isOr hasChan)

theorem connect_advances (isOp : op = .connect c chan circId) (enabled : Enabled cfg r op) :
    Advances cfg r op r (circuitSetCircidChan c .outbound circId (some chan) r) := by
  subst isOp
  obtain ⟨circ, alive, isOpen, noChan, allowed⟩ := enabled
  have live := lifeOf_of_circuits alive
  exact Advances.of_change live
    (circuitSetCircidChan_rewrites c .outbound circId (some chan) r _ live)
    (connect _ chan circId rfl live isOpen noChan allowed)

theorem unlink_advances (isOp : op = .unlink c d) (enabled : Enabled cfg r op) :
    Advances cfg r op r (circuitUnlinkFromChannel cfg c d r) := by
  subst isOp
  obtain ⟨circ, alive, hasChan⟩ := enabled
  have live := lifeOf_of_circuits alive
  have detached := circuitSetCircidChan_rewrites c d 0 none r _ live
  exact Advances.of_change live
    (detached.trans (circuitMarkForClose_rewrites cfg c _ _ detached.own))
    (unlink _ d rfl live (Option.isSome_iff_ne_none.mp hasChan))

theorem attachStream_advances (edge : Edge) (isOp : op = .attachStream c edge) :
    Advances cfg r op r (attachStream c edge r) := by
  refine withCircuit_advances r c _ (fun life live => ?_)
  exact Advances.of_change live
    (rewrites_record r _ c life _ [] live le_rfl (by simp) rfl (fun other => by simp))
    (attach life edge isOp live)

/-! ## Circuits that end -/

/-- Only circuit `c` may differ between the two states. -/
structure Frames (c : CircPtr) (before after : Relay) : Prop where
  others : ∀ other, other ≠ c → SameAt other before after
  brk : before.brk ≤ after.brk

theorem Frames.refl (before : Relay) : Frames c before before :=
  ⟨fun other _ => SameAt.refl other before, le_rfl⟩

theorem Frames.trans {c : CircPtr} {before middle after : Relay} (first : Frames c before middle)
    (second : Frames c middle after) : Frames c before after :=
  ⟨fun other ne => (first.others other ne).trans (second.others other ne),
    first.brk.trans second.brk⟩

theorem Rewrites.frames {c : CircPtr} {before after : Relay} {life : Life}
    (change : Rewrites before after c life) : Frames c before after :=
  ⟨change.others, change.brk⟩

theorem withCircuit_frames (f : Circuit → Relay)
    (frames : ∀ life, lifeOf before c = some life → Frames c before (f life.circ)) :
    Frames c before (before.withCircuit c f) := by
  cases live : before.circuits c with
  | none =>
    rw [withCircuit_none before c f live]
    exact ⟨fun other _ => fault_sameAt other before _, le_rfl⟩
  | some circ =>
    rw [withCircuit_some before c circ f live]
    exact frames _ (lifeOf_of_circuits live)

theorem clearChanCells_frames : Frames c before (clearChanCells c d before) := by
  refine withCircuit_frames before c _ (fun life live => ?_)
  have change := (clearChanCells_rewrites c d before life live).frames
  rwa [clearChanCells, withCircuit_some before c life.circ _ (live_of_lifeOf live)] at change

theorem freeDelayData_frames : Frames c before (freeDelayData c before) := by
  refine withCircuit_frames before c _ (fun life live => ?_)
  have change := (freeDelayData_rewrites c before life live).frames
  rwa [freeDelayData, withCircuit_some before c life.circ _ (live_of_lifeOf live)] at change

theorem circuitSetCircidChan_frames (chan : Option ChanPtr) :
    Frames c before (circuitSetCircidChan c d circId chan before) := by
  refine withCircuit_frames before c _ (fun life live => ?_)
  have change := (circuitSetCircidChan_rewrites c d circId chan before life live).frames
  rwa [circuitSetCircidChan, withCircuit_some before c life.circ _ (live_of_lifeOf live)]
    at change

end

theorem detachChannel_frames : Frames c before (detachChannel c d before) := by
  refine withCircuit_frames before c _ (fun life live => ?_)
  split
  · exact Frames.refl c before
  · next chan hasChan =>
    have clears : Frames c before (circuitClearCellQueue c chan before) := by
      refine withCircuit_frames before c _ (fun life live => ?_)
      split
      · exact clearChanCells_frames before c .outbound
      · exact clearChanCells_frames before c .inbound
    exact clears.trans (circuitSetCircidChan_frames _ c d 0 none)

theorem closeCircuit_frames : Frames c before (closeCircuit c before) := by
  have aboutToFree : Frames c before (circuitAboutToFree c before) := by
    refine withCircuit_frames before c _ (fun life live => ?_)
    split
    · exact (detachChannel_frames before c .outbound).trans (detachChannel_frames _ c .inbound)
    · exact detachChannel_frames before c .outbound
  refine aboutToFree.trans (withCircuit_frames _ c _ (fun life live => ?_))
  have emptied : Frames c (circuitAboutToFree c before)
      (if life.circ.magic = .orCircuit then
        freeDelayData c (clearChanCells c .inbound (circuitAboutToFree c before))
      else circuitAboutToFree c before) := by
    split
    · exact (clearChanCells_frames _ c .inbound).trans (freeDelayData_frames _ c)
    · exact Frames.refl c _
  refine (emptied.trans (clearChanCells_frames _ c .outbound)).trans ⟨fun other ne => ⟨?_, rfl⟩, le_rfl⟩
  exact Function.update_of_ne ne _ _

/-! ## The inversion theorem and the invariant rule -/

/-- The circuits that a step can put on the heap. -/
inductive Created (cfg : Config) : Op → Circuit → Prop
  | orCircuit (chan : ChanPtr) (circId : UInt32) (policy : Option DelayPolicy) :
      Created cfg (.createOr chan circId policy) (orCircuitNew cfg chan circId policy)
  | originCircuit (closeHeld : Bool) (halfStreams : Nat) :
      Created cfg (.createOrigin closeHeld halfStreams) (originCircuitNew closeHeld halfStreams)

/-- Addresses from `brk` on have never been a circuit. -/
def Fresh (r : Relay) : Prop := ∀ c, r.brk ≤ c → r.circuits c = none ∧ history c r.log = []

theorem closeCircuit_gone : (closeCircuit c before).circuits c = none := by
  unfold closeCircuit circuitFree withCircuit
  split
  · next freed => exact freed
  · exact Function.update_self _ _ _

/-- The three things that a step can be: a change of circuits, a new circuit, or
the end of one. -/
inductive StepKind (cfg : Config) (r : Relay) (op : Op) (after : Relay) : Prop
  | advances (changes : Advances cfg r op r after)
  | creates (circ : Circuit) (created : Created cfg op circ) (result : after = allocCircuit circ r)
  | closes (c : CircPtr) (alive : r.circuits c ≠ none) (frames : Frames c r after)
      (gone : after.circuits c = none)

theorem step_kind (taken : Step cfg r op after) : StepKind cfg r op after := by
  obtain ⟨enabled, rfl⟩ := taken
  cases op with
  | createOr chan circId policy => exact .creates _ (.orCircuit chan circId policy) rfl
  | createOrigin closeHeld halfStreams =>
    exact .creates _ (.originCircuit closeHeld halfStreams) rfl
  | attachStream c edge => exact .advances (attachStream_advances c edge rfl)
  | append c chan cell d fromstream env =>
    exact .advances (append_advances c chan cell d fromstream env rfl)
  | fire t now scheduleNow => exact .advances (fireTimer_advances t now scheduleNow rfl)
  | flush c chan writeOk => exact .advances (flush_advances c chan writeOk rfl)
  | truncate c => exact .advances (truncate_advances c rfl enabled)
  | connect c chan circId => exact .advances (connect_advances c chan circId rfl enabled)
  | mark c => exact .advances (circuitMarkForClose_advances r c)
  | unlink c d => exact .advances (unlink_advances c d rfl enabled)
  | close c => exact .closes c (Option.isSome_iff_ne_none.mp enabled) (closeCircuit_frames r c) (closeCircuit_gone r c)

section

variable (taken : Step cfg r op after) (fresh : Fresh r)

include taken fresh

theorem step_fresh : Fresh after := by
  intro c unused
  cases step_kind after taken with
  | advances changes =>
    obtain ⟨freed, silent⟩ := fresh c (changes.brk.trans unused)
    have same := changes.dead c freed
    exact ⟨same.1.trans freed, same.2.trans silent⟩
  | creates circ created result =>
    subst result
    have above : r.brk < c := Nat.lt_of_succ_le unused
    obtain ⟨freed, silent⟩ := fresh c above.le
    exact ⟨(Function.update_of_ne above.ne' _ _).trans freed, silent⟩
  | closes closed alive frames gone =>
    obtain ⟨freed, silent⟩ := fresh c (frames.brk.trans unused)
    by_cases same : c = closed
    · exact absurd freed (same ▸ alive)
    · have kept := frames.others c same
      exact ⟨kept.1.trans freed, kept.2.trans silent⟩

theorem step_life (c : CircPtr) (final : Life) (live : lifeOf after c = some final) :
    (∃ circ, Created cfg op circ ∧ final = ⟨[], circ⟩) ∨
      ∃ life, lifeOf r c = some life ∧ ReflTransGen (LifeStep cfg r op c) life final := by
  cases step_kind after taken with
  | advances changes => exact Or.inr (changes.lives c final live)
  | creates circ created result =>
    subst result
    by_cases isNew : c = r.brk
    · refine Or.inl ⟨circ, created, ?_⟩
      rw [isNew, lifeOf_of_circuits (Function.update_self _ _ _), Option.some.injEq] at live
      rw [← live, ← (fresh r.brk le_rfl).2]
      rfl
    · have same : SameAt c r (allocCircuit circ r) := ⟨Function.update_of_ne isNew _ _, rfl⟩
      exact Or.inr ⟨final, same.lifeOf_eq ▸ live, ReflTransGen.refl⟩
  | closes closed alive frames gone =>
    by_cases same : c = closed
    · rw [same, lifeOf, gone] at live
      cases live
    · exact Or.inr ⟨final, (frames.others c same).lifeOf_eq ▸ live, ReflTransGen.refl⟩

theorem step_path (c : CircPtr) (life final : Life) (live : lifeOf r c = some life)
    (alive : lifeOf after c = some final) : ReflTransGen (LifeStep cfg r op c) life final := by
  have unchanged : SameAt c r after → ReflTransGen (LifeStep cfg r op c) life final := by
    intro same
    rw [same.lifeOf_eq, live, Option.some.injEq] at alive
    rw [alive]
  cases step_kind after taken with
  | advances changes =>
    obtain ⟨first, before, path⟩ := changes.lives c final alive
    rw [live, Option.some.injEq] at before
    rwa [before]
  | creates circ created result =>
    refine unchanged ?_
    subst result
    have isOld : c ≠ r.brk := by
      intro same
      rw [lifeOf, same, (fresh r.brk le_rfl).1] at live
      cases live
    exact ⟨Function.update_of_ne isOld _ _, rfl⟩
  | closes closed gone frames freed =>
    refine unchanged (frames.others c (fun same => ?_))
    rw [same, lifeOf, freed] at alive
    cases alive

end

theorem run_fresh {ts : List (Transition Relay Op)} (run : RelayRun cfg ts r) : Fresh r :=
  run.invariant (fun _ _ => ⟨rfl, rfl⟩) (fun _ _ after fresh taken => step_fresh after taken fresh)

/-- What holds of a new circuit and is kept by every change that one step makes
is kept by the step. -/
theorem step_keeps {J : CircPtr → Life → Prop} (taken : Step cfg r op after) (fresh : Fresh r)
    (init : ∀ c op circ, Created cfg op circ → J c ⟨[], circ⟩)
    (keep : ∀ c life final, LifeStep cfg r op c life final → J c life → J c final)
    (before : ∀ c life, lifeOf r c = some life → J c life) :
    ∀ c life, lifeOf after c = some life → J c life := by
  intro c final live
  rcases step_life after taken fresh c final live with ⟨circ, created, rfl⟩ | ⟨life, alive, path⟩
  · exact init c op circ created
  · clear live
    induction path with
    | refl => exact before c life alive
    | tail _ change kept => exact keep c _ _ change kept

end

/-- The invariant rule for circuits: what holds of a new circuit and is kept by
every change that the steps of the run make holds of every circuit. -/
theorem run_life {J : CircPtr → Life → Prop} {ts : List (Transition Relay Op)}
    (run : RelayRun cfg ts r) (init : ∀ c op circ, Created cfg op circ → J c ⟨[], circ⟩)
    (keep : ∀ x ∈ ts, ∀ c life final, LifeStep cfg x.pre x.input c life final →
      J c life → J c final) : ∀ c life, lifeOf r c = some life → J c life := by
  induction run with
  | nil =>
    intro c life live
    simp [lifeOf, initial] at live
  | @snoc before after us e earlier taken ih =>
    have step : ∀ c life final, LifeStep cfg before e c life final → J c life → J c final :=
      keep ⟨before, e, after⟩ (by simp)
    exact step_keeps after taken (run_fresh earlier) init step
      (ih (fun x member => keep x (List.mem_append_left _ member)))

end RendezMix.Guarantees
