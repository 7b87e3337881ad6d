import RendezMix.Guarantees.TimerOwnership

/-!
# Delay timers and their argument blocks are released

A scheduled timer always belongs to one live circuit and its block names that
circuit. Blocks are another matter: `timer_free` on a timer that is still
scheduled drops the timer and leaves its `delay_info_t` behind, so a circuit
that is freed before its timers have fired leaks them.
-/
namespace RendezMix.Guarantees
open Source Library.Runs Library.TimerArena

/-- Every scheduled timer is that of exactly one live circuit and direction,
which its block names; nothing was used after it was freed or freed twice; and
every block that is still allocated names a circuit that is still alive. -/
structure TimersSound (r : Relay) : Prop where
  owned : ∀ t arg armed, r.timers t = some ⟨arg, some armed⟩ →
    ∃ c d circ, r.circuits c = some circ ∧ (circ.hop d).delayTimer = some t ∧
      r.delayInfos arg = some ⟨c, d⟩ ∧
      ∀ c' d' circ', r.circuits c' = some circ' → (circ'.hop d').delayTimer = some t →
        c' = c ∧ d' = d
  noFaults : NoFaults r.log
  released : ∀ i info, r.delayInfos i = some info → (r.circuits info.circ).isSome

/-- A delay timer of `c` is scheduled. -/
def TimerScheduled (r : Relay) (c : CircPtr) : Prop :=
  ∃ circ d t arg armed, r.circuits c = some circ ∧ (circ.hop d).delayTimer = some t ∧
    r.timers t = some ⟨arg, some armed⟩

/-- A delay timer of `c` was freed while it was scheduled. -/
def TimerUnscheduled (r : Relay) (c : CircPtr) : Prop :=
  ∃ i d, Event.unscheduled i ∈ r.log ∧ r.delayInfos i = some ⟨c, d⟩

/-- If the step frees a circuit, all delay timers the circuit ever had have fired. -/
def FreesCleanly (x : Transition Relay Op) : Prop :=
  ∀ c, x.input = .close c → ¬ TimerScheduled x.pre c ∧ ¬ TimerUnscheduled x.pre c

/-- Allocated blocks name live circuits. -/
def BlocksNameLive (r : Relay) : Prop :=
  ∀ i info, r.delayInfos i = some info → (r.circuits info.circ).isSome

section

variable (c : CircPtr) (d : CellDirection) (r : Relay)

theorem timersSound_iff_blocksNameLive (sane : Sane r) : TimersSound r ↔ BlocksNameLive r := by
  refine ⟨fun sound => sound.released, fun released => ⟨?_, sane.noFaults, released⟩⟩
  intro t arg armed pending
  obtain ⟨c, d, circ, alive, has, block, _⟩ := sane.scheduled t arg armed pending
  exact ⟨c, d, circ, alive, has, block, fun c' d' circ' alive' has' =>
    sane.owner_unique alive' has' alive has⟩

/-! ## Freeing a circuit does not touch the blocks -/

theorem withCircuit_delayInfos (c : CircPtr) (f : Circuit → Relay)
    (keeps : ∀ circ, (f circ).delayInfos = r.delayInfos) :
    (r.withCircuit c f).delayInfos = r.delayInfos := by
  unfold Relay.withCircuit
  split
  · rfl
  · exact keeps _

theorem clearChanCells_delayInfos : (clearChanCells c d r).delayInfos = r.delayInfos :=
  withCircuit_delayInfos r c _ (fun _ => rfl)

theorem circuitSetCircidChan_delayInfos (circId : UInt32) (chan : Option ChanPtr) (r : Relay) :
    (circuitSetCircidChan c d circId chan r).delayInfos = r.delayInfos :=
  withCircuit_delayInfos r c _ (fun _ => rfl)

theorem freeDelayData_delayInfos : (freeDelayData c r).delayInfos = r.delayInfos := by
  refine withCircuit_delayInfos r c _ (fun circ => ?_)
  exact (timerFree_delayInfos _ _).trans (timerFree_delayInfos _ _)

theorem detachChannel_delayInfos : (detachChannel c d r).delayInfos = r.delayInfos := by
  refine withCircuit_delayInfos r c _ (fun circ => ?_)
  split
  · rfl
  · rw [circuitSetCircidChan_delayInfos]
    refine withCircuit_delayInfos r c _ (fun circ => ?_)
    split
    · exact clearChanCells_delayInfos c .outbound r
    · exact clearChanCells_delayInfos c .inbound r

theorem closeCircuit_delayInfos : (closeCircuit c r).delayInfos = r.delayInfos := by
  have aboutToFree : (circuitAboutToFree c r).delayInfos = r.delayInfos := by
    refine withCircuit_delayInfos r c _ (fun circ => ?_)
    split
    · rw [detachChannel_delayInfos, detachChannel_delayInfos]
    · rw [detachChannel_delayInfos]
  rw [← aboutToFree]
  refine withCircuit_delayInfos _ c _ (fun circ => ?_)
  rw [clearChanCells_delayInfos]
  split
  · rw [freeDelayData_delayInfos, clearChanCells_delayInfos]
  · rfl

/-! ## Blocks and the steps of the relay -/

theorem block_scheduled_or_unscheduled (sane : Sane r) (i : InfoPtr) (info : DelayInfo)
    (allocated : r.delayInfos i = some info) :
    TimerScheduled r info.circ ∨ TimerUnscheduled r info.circ := by
  have block : (arenaOf r).blocks i = some (slotNamed info) := by simp [arenaOf, allocated]
  rcases sane.owned.block_live i _ block with lost | ⟨t, armed, entry⟩
  · obtain ⟨event, member, unscheduled⟩ := List.mem_filterMap.mp lost
    have same : event = .unscheduled i := by
      cases event with
      | unscheduled j => rw [Option.some.inj unscheduled]
      | _ => cases unscheduled
    exact Or.inr ⟨i, info.direction, same ▸ member, allocated⟩
  · obtain ⟨⟨arg, pending⟩, timer, fields⟩ := Option.map_eq_some_iff.mp entry
    obtain ⟨rfl, rfl⟩ := Prod.mk.inj fields
    obtain ⟨c, d, circ, alive, has, named, _⟩ := sane.scheduled t arg armed timer
    rw [allocated, Option.some.injEq] at named
    rw [named]
    exact Or.inl ⟨circ, d, t, arg, armed, alive, has, timer⟩

theorem exec_blocksNameLive (cfg : Config) (r : Relay) (op : Op) (orderly : Orderly r)
    (live : BlocksNameLive r) (enabled : Enabled cfg r op) (notClose : ∀ c, op ≠ .close c) :
    BlocksNameLive (exec cfg op r) := by
  have created : ∀ circ, BlocksNameLive (allocCircuit circ r) := by
    intro circ i info allocated
    have alive := live i info allocated
    have ne : info.circ ≠ r.brk := by
      intro same
      rw [same, (orderly.fresh r.brk le_rfl).1] at alive
      cases alive
    exact (congrArg Option.isSome (Function.update_of_ne ne _ r.circuits)).trans alive
  cases op with
  | createOr chan circId policy => exact created _
  | createOrigin held half => exact created _
  | _ =>
    have safely := exec_safely cfg r _ orderly.sane enabled (by simp) (by simp) notClose
    intro i info allocated
    rw [safely.alive info.circ]
    exact (safely.named i info allocated).elim (live i info) id

theorem close_blocksNameLive (sane : Sane r) (live : BlocksNameLive r) :
    BlocksNameLive (closeCircuit c r) ↔ ¬ TimerScheduled r c ∧ ¬ TimerUnscheduled r c := by
  have gone : ((closeCircuit c r).circuits c).isSome = false := by rw [closeCircuit_gone]; rfl
  constructor
  · intro stillLive
    constructor
    · rintro ⟨circ, d, t, arg, armed, alive, has, timer⟩
      obtain ⟨c', d', circ', alive', has', block, _⟩ := sane.scheduled t arg armed timer
      obtain ⟨rfl, rfl⟩ := sane.owner_unique alive has alive' has'
      have kept := stillLive arg _ ((congrFun (closeCircuit_delayInfos c r) arg).trans block)
      rw [gone] at kept
      cases kept
    · rintro ⟨i, d, _, block⟩
      have kept := stillLive i _ ((congrFun (closeCircuit_delayInfos c r) i).trans block)
      rw [gone] at kept
      cases kept
  · rintro ⟨noneScheduled, noneUnscheduled⟩ i info allocated
    rw [closeCircuit_delayInfos] at allocated
    have ne : info.circ ≠ c := by
      rintro rfl
      rcases block_scheduled_or_unscheduled r sane i info allocated with scheduled | unscheduled
      · exact noneScheduled scheduled
      · exact noneUnscheduled unscheduled
    rw [((closeCircuit_frames r c).others info.circ ne).1]
    exact live i info allocated

end

/-- The invariant of the runs that leave no block behind. -/
def Unleaked (r : Relay) : Prop := Orderly r ∧ BlocksNameLive r

/-- In every run, delay timers and argument blocks are in order after each step
exactly when every circuit is freed only after all delay timers it ever had have fired. -/
theorem timersSound_iff_freesCleanly (cfg : Config) (ts : List (Transition Relay Op)) (r : Relay)
    (run : RelayRun cfg ts r) : (∀ x ∈ ts, TimersSound x.post) ↔ ∀ x ∈ ts, FreesCleanly x := by
  have step : ∀ before op after, Unleaked before → Source.Step cfg before op after →
      (BlocksNameLive after ↔ FreesCleanly ⟨before, op, after⟩) := by
    rintro before op after ⟨orderly, live⟩ ⟨enabled, rfl⟩
    by_cases closes : ∃ c, op = .close c
    · obtain ⟨c, rfl⟩ := closes
      refine (close_blocksNameLive c before orderly.sane live).trans ⟨fun clean c' same => ?_,
        fun clean => clean c rfl⟩
      rw [← (Op.close.inj same)]
      exact clean
    · have notClose : ∀ c, op ≠ .close c := fun c same => closes ⟨c, same⟩
      exact iff_of_true (exec_blocksNameLive cfg before op orderly live enabled notClose)
        (fun c same => absurd same (notClose c))
  have init : Unleaked Relay.initial :=
    ⟨orderly_initial, fun i info allocated => by cases allocated⟩
  refine Run.sound_iff_good run init ?_ ?_
  · intro before op after inv taken
    have orderly := step_orderly cfg before after op inv.1 taken
    exact (timersSound_iff_blocksNameLive after orderly.sane).trans (step before op after inv taken)
  · intro before op after inv taken clean
    exact ⟨step_orderly cfg before after op inv.1 taken, (step before op after inv taken).mpr clean⟩

theorem timersSound_iff_freesCleanly_delayedCells :
    (∀ x ∈ sampleTrace sampleConfig delayedCells, TimersSound x.post) ↔
      ∀ x ∈ sampleTrace sampleConfig delayedCells, FreesCleanly x :=
  timersSound_iff_freesCleanly sampleConfig _ _ delayedCells_run

/-- A circuit that is closed and freed while it holds a delayed cell. -/
def freedWhileDelaying : List Op :=
  [.createOr 1 7 (some samplePolicy), .connect 0 2 9,
    .append 0 2 (sampleCell 9) .outbound 0 (sampleEnv 0 5000), .mark 0, .close 0]

theorem freedWhileDelaying_not_timersSound :
    RelayRun sampleConfig (sampleTrace sampleConfig freedWhileDelaying)
        (sampleRelay sampleConfig freedWhileDelaying) ∧
      ¬ TimersSound (sampleRelay sampleConfig freedWhileDelaying) := by
  refine ⟨relayRun_of_admissible sampleConfig freedWhileDelaying (by decide +kernel), ?_⟩
  intro sound
  have kept := sound.released 2 ⟨0, .outbound⟩ (by decide +kernel)
  revert kept
  decide +kernel

end RendezMix.Guarantees

/-!
# Delayed cells are not stranded

Cells in a delay queue leave it only when the direction's timer fires. The
callback frees the timer before it looks at the channel, so a timer that fires
while the circuit has no channel in that direction leaves its cells behind.
-/
namespace RendezMix.Guarantees
open Source Library.Runs

/-- In each direction of each open or_circuit, cells are waiting exactly if a
timer is there to release them. -/
def NoneStranded (r : Relay) : Prop :=
  ∀ c circ, r.circuits c = some circ → circ.magic = .orCircuit → circ.markedForClose = false →
    ∀ d, (circ.hop d).delayQueue ≠ [] ↔ (circ.hop d).delayTimer ≠ none

/-- If the step fires the delay timer of an open circuit, the circuit has a
channel in the direction of that timer. -/
def FiresOnChannel (x : Transition Relay Op) : Prop :=
  ∀ t now scheduleNow, x.input = .fire t now scheduleNow →
    ∀ c circ, x.pre.circuits c = some circ → circ.markedForClose = false →
      ∀ d, (circ.hop d).delayTimer = some t → (circ.hop d).chan ≠ none

/-- `NoneStranded`, for one circuit. -/
def Attended (life : Life) : Prop :=
  life.circ.magic = .orCircuit → life.circ.markedForClose = false →
    ∀ d, (life.circ.hop d).delayQueue ≠ [] ↔ (life.circ.hop d).delayTimer ≠ none

section

variable (cfg : Config)

theorem noneStranded_iff_attended (r : Relay) :
    NoneStranded r ↔ ∀ c life, lifeOf r c = some life → Attended life := by
  constructor
  · intro noneStranded c life live
    exact noneStranded c life.circ (live_of_lifeOf live)
  · intro attended c circ alive
    exact attended c _ (lifeOf_of_circuits alive)

theorem attended_created (op : Op) (circ : Circuit) (created : Created cfg op circ) :
    Attended ⟨[], circ⟩ := by
  intro _ _ d
  obtain ⟨chan, circId, fresh⟩ := created_hop cfg op circ created d
  rw [fresh]
  simp [Hop.init]

theorem schedule_attended (side : DelaySide) (now : ClockReading) (t : TimerPtr)
    (noTimer : side.timer = none) :
    (side.schedule now t).queue ≠ [] ↔ (side.schedule now t).timer ≠ none := by
  unfold DelaySide.schedule
  split
  · next empty => simp [empty, noTimer]
  · next cell rest head => simp [head]

theorem lifeStep_attended (r : Relay) (op : Op) (after : Relay) (sane : Sane r)
    (onChannel : FiresOnChannel ⟨r, op, after⟩) (c : CircPtr) (life final : Life)
    (step : LifeStep cfg r op c life final) (attended : Attended life) : Attended final := by
  intro isOr isOpen d
  have keeps := lifeStep_keeps cfg r op c life final step
  have before := attended (keeps.magic ▸ isOr) (keeps.isOpen isOpen) d
  have change := lifeStep_delay cfg r op c life final step d
  have result : (sideOf c d final).queue ≠ [] ↔ (sideOf c d final).timer ≠ none := by
    generalize sideOf c d final = side at change
    cases change with
    | same => exact before
    | enqueue chan cell fromstream env copy t isOp first wasOpen delayed ready =>
      split
      · next noTimer => exact schedule_attended _ _ t noTimer
      · next hasTimer =>
        refine iff_of_true ?_ hasTimer
        simp [DelaySide.enqueue]
    | gone t now scheduleNow armed isOp fires first wasOpen wasOr noChan =>
      have has := (sane.fires c d t armed fires life first).1
      exact absurd noChan
        (onChannel t now scheduleNow isOp c life.circ (live_of_lifeOf first) wasOpen d has)
    | release t next now scheduleNow armed isOp fires first wasOpen wasOr =>
      exact schedule_attended _ _ next rfl
    | clear marked =>
      have still := keeps.marked marked
      rw [isOpen] at still
      cases still
  exact result

theorem step_noneStranded (r after : Relay) (op : Op) (orderly : Orderly r)
    (noneStranded : NoneStranded r) (taken : Step cfg r op after)
    (onChannel : FiresOnChannel ⟨r, op, after⟩) : NoneStranded after := by
  rw [noneStranded_iff_attended] at noneStranded ⊢
  exact step_keeps after taken orderly.fresh (fun _ op circ => attended_created cfg op circ)
    (lifeStep_attended cfg r op after orderly.sane onChannel) noneStranded

theorem firesOnChannel_of_noneStranded (r after : Relay) (op : Op) (orderly : Orderly r)
    (noneStranded : NoneStranded r) (taken : Step cfg r op after) (still : NoneStranded after) :
    FiresOnChannel ⟨r, op, after⟩ := by
  rintro t now scheduleNow isOp c circ alive isOpen d has gone
  obtain ⟨enabled, result⟩ := taken
  obtain rfl : op = .fire t now scheduleNow := isOp
  obtain ⟨⟨arg, pending⟩, allocated, isSome⟩ := enabled
  obtain ⟨armed, rfl⟩ := Option.isSome_iff_exists.mp isSome
  have allocated : r.timers t = some ⟨arg, some armed⟩ := allocated
  have live := lifeOf_of_circuits alive
  have isOr : circ.magic = .orCircuit := by
    cases magic : circ.magic with
    | orCircuit => rfl
    | originCircuit =>
      have idle := orderly.idle c _ live magic d
      rw [has] at idle
      cases idle
  obtain ⟨c', d', circ', alive', has', block, _⟩ := orderly.sane.scheduled t arg armed allocated
  obtain ⟨rfl, rfl⟩ := orderly.sane.owner_unique alive has alive' has'
  have fired : lifeOf (r.setTimer t (some ⟨arg, none⟩)) c = some ⟨history c r.log, circ⟩ := live
  have change := cellReadyCallback_gone c d arg now scheduleNow
    (r.setTimer t (some ⟨arg, none⟩)) _ block fired isOpen isOr gone
  have reached : after = cellReadyCallback arg now scheduleNow
      (r.setTimer t (some ⟨arg, none⟩)) := by
    rw [result]
    simp only [exec, fireTimer, allocated]
  rw [← reached] at change
  have stranded := still c _ (live_of_lifeOf change.own)
    ((Circuit.setHop_magic ..).trans isOr) ((Circuit.setHop_markedForClose ..).trans isOpen) d
  have waiting := (noneStranded c circ alive isOr isOpen d).mpr (by rw [has]; simp)
  simp only [Life.setHop, Life.record, Circuit.hop_setHop] at stranded
  exact stranded.mp waiting rfl

/-- The invariant of the runs that strand no cell. -/
def Waiting (r : Relay) : Prop := Orderly r ∧ NoneStranded r

/-- In every run, no delayed cell of an open or_circuit is stranded after any
step exactly when no delay timer of an open circuit fires while the circuit has
no channel in that direction. -/
theorem noneStranded_iff_firesOnChannel (cfg : Config) (ts : List (Transition Relay Op))
    (r : Relay) (run : RelayRun cfg ts r) :
    (∀ x ∈ ts, NoneStranded x.post) ↔ ∀ x ∈ ts, FiresOnChannel x := by
  have init : Waiting Relay.initial :=
    ⟨orderly_initial, fun c circ alive => by cases alive⟩
  refine Run.sound_iff_good run init ?_ ?_
  · rintro before op after ⟨orderly, noneStranded⟩ taken
    exact ⟨firesOnChannel_of_noneStranded cfg before after op orderly noneStranded taken,
      step_noneStranded cfg before after op orderly noneStranded taken⟩
  · rintro before op after ⟨orderly, noneStranded⟩ taken onChannel
    exact ⟨step_orderly cfg before after op orderly taken,
      step_noneStranded cfg before after op orderly noneStranded taken onChannel⟩

theorem noneStranded_iff_firesOnChannel_delayedCells :
    (∀ x ∈ sampleTrace sampleConfig delayedCells, NoneStranded x.post) ↔
      ∀ x ∈ sampleTrace sampleConfig delayedCells, FiresOnChannel x :=
  noneStranded_iff_firesOnChannel sampleConfig _ _ delayedCells_run

/-- A delayed cell whose timer fires between a TRUNCATE and the next EXTEND. -/
def strandedCell : List Op :=
  [.createOr 1 7 (some samplePolicy), .connect 0 2 9,
    .append 0 2 (sampleCell 9) .outbound 0 (sampleEnv 0 5000), .truncate 0,
    .fire 3 (clockAt 5000) (clockAt 5000)]

theorem strandedCell_not_noneStranded :
    RelayRun sampleConfig (sampleTrace sampleConfig strandedCell)
        (sampleRelay sampleConfig strandedCell) ∧
      ¬ NoneStranded (sampleRelay sampleConfig strandedCell) := by
  refine ⟨relayRun_of_admissible sampleConfig strandedCell (by decide +kernel), ?_⟩
  intro noneStranded
  obtain ⟨circ, alive, isOr, isOpen, waiting, noTimer⟩ :
      ∃ circ ∈ (sampleRelay sampleConfig strandedCell).circuits 0,
        circ.magic = .orCircuit ∧ circ.markedForClose = false ∧
          (circ.hop .outbound).delayQueue ≠ [] ∧ (circ.hop .outbound).delayTimer = none := by
    decide +kernel
  exact (noneStranded 0 circ alive isOr isOpen .outbound).mp waiting noTimer

end

end RendezMix.Guarantees
