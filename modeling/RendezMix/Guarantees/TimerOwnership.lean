import RendezMix.Guarantees.DelaySteps
import RendezMix.Library.TimerArena

/-!
# Delay timers are owned and live

The delay timers of all circuits form one arena: the slots are the directions of
live circuits, the blocks are the `delay_info_t`s. Every function of the cell
path is made of arming a free slot, firing, and freeing the timer of a slot. What the code
misses is the block of a timer that is freed while it is still scheduled.
-/
namespace RendezMix.Guarantees
open Source Library.Runs Library.TimerArena Relay Circuit

/-- The argument block whose timer an event frees while it is scheduled. -/
def lostBy : Event → Option InfoPtr
  | .unscheduled info => some info
  | _ => none

def slotOf (r : Relay) (k : CircPtr × CellDirection) : Option TimerPtr :=
  (r.circuits k.1).bind (fun circ => (circ.hop k.2).delayTimer)

/-- What the arena sees of a timer, and of an argument block. -/
def timerEntry (timer : TorTimer) : InfoPtr × Option Armed := (timer.arg, timer.pending)

def slotNamed (info : DelayInfo) : CircPtr × CellDirection := (info.circ, info.direction)

/-- The delay timers of a relay. -/
def arenaOf (r : Relay) : Arena (CircPtr × CellDirection) Armed where
  slot := slotOf r
  timers := fun t => (r.timers t).map timerEntry
  blocks := fun i => (r.delayInfos i).map slotNamed
  brk := r.brk
  last := fun k => lastArmed k.1 k.2 r.log
  lost := r.log.filterMap lostBy

/-- No use of freed memory, no second free, no null dereference so far. -/
def NoFaults (log : List Event) : Prop := ∀ kind, Event.fault kind ∉ log

/-- The state of the delay timers is in order. -/
structure Sane (r : Relay) : Prop where
  owned : Owned (arenaOf r)
  noFaults : NoFaults r.log

/-- Events that concern neither timers nor memory. -/
def TimerQuiet (events : List Event) : Prop :=
  ∀ event ∈ events, (∀ c d, armedBy c d event = none) ∧ lostBy event = none ∧
    ∀ kind, event ≠ .fault kind

variable (cfg : Config) (r after : Relay) (op : Op) (c : CircPtr) (d : CellDirection)
  (chan : ChanPtr) (log : List Event) (circ : Circuit) (events : List Event)

section

variable (new : Circuit)

section

variable (quiet : TimerQuiet events)

include quiet

theorem lastArmed_quiet : lastArmed c d (log ++ events) = lastArmed c d log :=
  lastArmed_idle c d log events (fun event member => (quiet event member).1 c d)

theorem lost_quiet : (log ++ events).filterMap lostBy = log.filterMap lostBy := by
  have nothing : events.filterMap lostBy = [] :=
    List.filterMap_eq_nil_iff.mpr (fun event member => (quiet event member).2.1)
  rw [List.filterMap_append, nothing, List.append_nil]

end

theorem noFaults_append (before : NoFaults log) (added : NoFaults events) :
    NoFaults (log ++ events) := by
  intro kind member
  exact (List.mem_append.mp member).elim (before kind) (added kind)

theorem TimerQuiet.noFaults {events : List Event} (quiet : TimerQuiet events) : NoFaults events :=
  fun kind member => (quiet _ member).2.2 kind rfl

/-- A change that touches no timer. -/
structure Neutral (r after : Relay) : Prop where
  timers : after.timers = r.timers
  infos : after.delayInfos = r.delayInfos
  brk : r.brk ≤ after.brk
  slots : ∀ k, slotOf after k = slotOf r k
  log : ∃ events, after.log = r.log ++ events ∧ TimerQuiet events

theorem Neutral.sane {r after : Relay} (neutral : Neutral r after) (sane : Sane r) :
    Sane after := by
  obtain ⟨events, log, quiet⟩ := neutral.log
  have arena : arenaOf after = { arenaOf r with brk := after.brk } := by
    unfold arenaOf
    simp only [neutral.timers, neutral.infos, log, lastArmed_quiet _ _ _ _ quiet,
      lost_quiet _ _ quiet, Arena.mk.injEq, and_true]
    exact funext neutral.slots
  constructor
  · rw [arena]
    exact sane.owned.grow after.brk neutral.brk
  · rw [log]
    exact noFaults_append _ _ sane.noFaults quiet.noFaults

theorem timerQuiet_append (first second : List Event) (quiet : TimerQuiet first)
    (also : TimerQuiet second) : TimerQuiet (first ++ second) := by
  intro event member
  exact (List.mem_append.mp member).elim (quiet event) (also event)

/-- Replacing a circuit by one with the same timers. -/
theorem neutral_record (events : List Event) (live : r.circuits c = some circ)
    (timers : after.timers = r.timers) (infos : after.delayInfos = r.delayInfos)
    (brk : r.brk ≤ after.brk)
    (circuits : after.circuits = Function.update r.circuits c (some new))
    (same : ∀ d, (new.hop d).delayTimer = (circ.hop d).delayTimer)
    (log : after.log = r.log ++ events) (quiet : TimerQuiet events) : Neutral r after := by
  refine ⟨timers, infos, brk, fun k => ?_, events, log, quiet⟩
  unfold slotOf
  rw [circuits]
  by_cases eq : k.1 = c
  · rw [eq, Function.update_self, live]
    exact same k.2
  · rw [Function.update_of_ne eq]

/-- A change after which the same circuits are alive, new argument blocks name
live circuits, and the timers are in order if they were before. -/
structure Safely (r after : Relay) : Prop where
  alive : ∀ c, (after.circuits c).isSome = (r.circuits c).isSome
  named : ∀ i info, after.delayInfos i = some info →
    r.delayInfos i = some info ∨ (r.circuits info.circ).isSome
  sane : Sane r → Sane after

theorem Safely.refl : Safely r r := ⟨fun _ => rfl, fun _ _ => Or.inl, id⟩

theorem Safely.trans {r middle after : Relay} (first : Safely r middle)
    (second : Safely middle after) : Safely r after := by
  refine ⟨fun c => (second.alive c).trans (first.alive c), fun i info has => ?_,
    fun sane => second.sane (first.sane sane)⟩
  rcases second.named i info has with older | live
  · exact first.named i info older
  · exact Or.inr ((first.alive info.circ).symm.trans live)

theorem alive_update (live : r.circuits c = some circ)
    (circuits : after.circuits = Function.update r.circuits c (some new)) (other : CircPtr) :
    (after.circuits other).isSome = (r.circuits other).isSome := by
  rw [circuits]
  by_cases same : other = c
  · rw [same, Function.update_self, live]
    rfl
  · rw [Function.update_of_ne same]

theorem safely_record (events : List Event) (live : r.circuits c = some circ)
    (timers : after.timers = r.timers) (infos : after.delayInfos = r.delayInfos)
    (brk : r.brk ≤ after.brk)
    (circuits : after.circuits = Function.update r.circuits c (some new))
    (same : ∀ d, (new.hop d).delayTimer = (circ.hop d).delayTimer)
    (log : after.log = r.log ++ events) (quiet : TimerQuiet events) : Safely r after :=
  ⟨alive_update r after c circ new live circuits, fun _ _ has => Or.inl (infos ▸ has),
    (neutral_record r after c circ new events live timers infos brk circuits same log quiet).sane⟩

end

theorem withCircuit_safely (f : Circuit → Relay) (live : (r.circuits c).isSome)
    (safely : ∀ circ, r.circuits c = some circ → Safely r (f circ)) :
    Safely r (r.withCircuit c f) := by
  obtain ⟨circ, alive⟩ := Option.isSome_iff_exists.mp live
  rw [withCircuit_some r c circ f alive]
  exact safely circ alive

theorem setHop_delayTimer (d e : CellDirection) (hop : Hop)
    (same : hop.delayTimer = (circ.hop d).delayTimer) :
    ((circ.setHop d hop).hop e).delayTimer = (circ.hop e).delayTimer := by
  by_cases eq : e = d
  · rw [eq, hop_setHop, same]
  · rw [hop_setHop_of_ne _ _ _ _ eq]

theorem timerQuiet_sync (d : CellDirection) :
    TimerQuiet (circuitSynchronizeWrittenOrBandwidth cfg c circ d) := by
  unfold circuitSynchronizeWrittenOrBandwidth TimerQuiet
  split
  · simp
  · simp [armedBy, lostBy]

/-! ## Functions that leave the timers alone -/

theorem circuitMarkForClose_safely (r : Relay) (live : (r.circuits c).isSome) :
    Safely r (circuitMarkForClose cfg c r) := by
  refine withCircuit_safely r c _ live (fun circ alive => ?_)
  split
  · exact Safely.refl r
  · split
    · exact Safely.refl r
    · refine safely_record r _ c circ { circ with markedForClose := true }
        (circuitSynchronizeWrittenOrBandwidth cfg c circ .outbound ++
          circuitSynchronizeWrittenOrBandwidth cfg c circ .inbound ++ [.markForClose c circ])
        alive rfl rfl le_rfl rfl (fun d => by cases d <;> rfl) (by simp) ?_
      exact timerQuiet_append _ _ (timerQuiet_append _ _ (timerQuiet_sync cfg c circ .outbound)
        (timerQuiet_sync cfg c circ .inbound)) (by simp [TimerQuiet, armedBy, lostBy])

theorem clearChanCells_safely (r : Relay) (live : (r.circuits c).isSome) :
    Safely r (clearChanCells c d r) := by
  refine withCircuit_safely r c _ live (fun circ alive => ?_)
  exact safely_record r _ c circ _ [.cleared c d (circ.hop d).chanCells] alive rfl rfl le_rfl rfl
    (fun e => setHop_delayTimer circ d e _ rfl) rfl (by simp [TimerQuiet, armedBy, lostBy])

theorem circuitSetCircidChan_safely (circId : UInt32) (chan : Option ChanPtr) (r : Relay)
    (live : (r.circuits c).isSome) : Safely r (circuitSetCircidChan c d circId chan r) := by
  refine withCircuit_safely r c _ live (fun circ alive => ?_)
  exact safely_record r _ c circ _ [] alive rfl rfl le_rfl rfl
    (fun e => setHop_delayTimer circ d e _ rfl) (by simp) (by simp [TimerQuiet])

theorem setStreamsBlockedOnCirc_safely (block : Bool) (streamId : UInt16) (r : Relay)
    (live : (r.circuits c).isSome) :
    Safely r (setStreamsBlockedOnCirc c chan block streamId r) := by
  refine withCircuit_safely r c _ live (fun circ alive => ?_)
  refine safely_record r _ c circ _ [] alive rfl rfl le_rfl rfl (fun d => ?_) (by simp)
    (by simp [TimerQuiet])
  obtain ⟨flag, hop⟩ := setStreamsBlocked_hop circ chan block streamId d
  rw [hop]

theorem attachStream_safely (edge : Edge) (r : Relay) (live : (r.circuits c).isSome) :
    Safely r (attachStream c edge r) := by
  refine withCircuit_safely r c _ live (fun circ alive => ?_)
  exact safely_record r _ c circ _ [] alive rfl rfl le_rfl rfl (fun d => by cases d <;> rfl)
    (by simp) (by simp [TimerQuiet])

theorem circuitClearCellQueue_safely (r : Relay) (live : (r.circuits c).isSome) :
    Safely r (circuitClearCellQueue c chan r) := by
  refine withCircuit_safely r c _ live (fun circ alive => ?_)
  split
  · exact clearChanCells_safely c .outbound r live
  · exact clearChanCells_safely c .inbound r live

theorem detachChannel_safely (r : Relay) (live : (r.circuits c).isSome) :
    Safely r (detachChannel c d r) := by
  refine withCircuit_safely r c _ live (fun circ alive => ?_)
  split
  · exact Safely.refl r
  · next chan hasChan =>
    have cleared := circuitClearCellQueue_safely c chan r live
    exact cleared.trans (circuitSetCircidChan_safely c d 0 none _ ((cleared.alive c).trans live))

section

variable (hop : Hop) (t : Option TimerPtr)

theorem truncateNextHop_safely (r : Relay) (live : (r.circuits c).isSome) :
    Safely r (truncateNextHop cfg c r) := by
  refine withCircuit_safely r c _ live (fun circ alive => ?_)
  split
  · exact Safely.refl r
  · next chan hasChan =>
    have synced : Safely r
        (r.emitAll (circuitSynchronizeWrittenOrBandwidth cfg c circ .outbound)) :=
      safely_record r _ c circ circ _ alive rfl rfl le_rfl
        (by rw [emitAll_circuits, ← alive, Function.update_eq_self]) (fun _ => rfl) rfl
        (timerQuiet_sync cfg c circ .outbound)
    have cleared := synced.trans
      (circuitClearCellQueue_safely c chan _ ((synced.alive c).trans live))
    exact cleared.trans
      (circuitSetCircidChan_safely c .outbound 0 none _ ((cleared.alive c).trans live))

theorem channelFlushCircuit_safely (writeOk : Bool) (r : Relay) (live : (r.circuits c).isSome) :
    Safely r (channelFlushCircuit cfg c chan writeOk r) := by
  refine withCircuit_safely r c _ live (fun circ alive => ?_)
  dsimp only
  split
  · split
    · exact Safely.refl r
    · exact circuitMarkForClose_safely cfg c r live
  · next cell rest head =>
    have popped : ∀ event, TimerQuiet [event] → Safely r
        ((r.setCircuit c (circ.setHop (circ.directionOf chan)
          { circ.hop (circ.directionOf chan) with chanCells := rest })).emit event) := by
      intro event quiet
      exact safely_record r _ c circ _ [event] alive rfl rfl le_rfl rfl
        (fun e => setHop_delayTimer circ _ e _ rfl) rfl quiet
    split
    · exact popped _ (by simp [TimerQuiet, armedBy, lostBy])
    · have written := popped (.written c (circ.directionOf chan) chan
        (circ.hop (circ.directionOf chan)).circId cell) (by simp [TimerQuiet, armedBy, lostBy])
      split
      · exact written.trans
          (setStreamsBlockedOnCirc_safely c chan false 0 _ ((written.alive c).trans live))
      · exact written

/-! ## Functions that arm, fire and free timers -/

theorem map_update {α β γ : Type} [DecidableEq α] (f : β → γ) (g : α → β) (i : α) (v : β) :
    (fun x => f (Function.update g i v x)) = Function.update (fun x => f (g x)) i (f v) :=
  Function.comp_update f g i v

theorem slotOf_setHop (alive : r.circuits c = some circ)
    (circuits : after.circuits = Function.update r.circuits c (some (circ.setHop d hop))) :
    slotOf after = Function.update (slotOf r) (c, d) hop.delayTimer := by
  funext ⟨c', d'⟩
  by_cases same : (c', d') = (c, d)
  · obtain ⟨rfl, rfl⟩ := Prod.mk.inj same
    simp [slotOf, circuits]
  · rw [Function.update_of_ne same]
    unfold slotOf
    rw [circuits]
    by_cases own : c' = c
    · subst own
      have ne : d' ≠ d := fun eq => same (by rw [eq])
      simp [alive, hop_setHop_of_ne _ _ _ _ ne]
    · rw [Function.update_of_ne own]

theorem lastArmed_update (armed : Armed) :
    (fun k : CircPtr × CellDirection => lastArmed k.1 k.2 (log ++ [.armed c d armed])) =
      Function.update (fun k => lastArmed k.1 k.2 log) (c, d) (some armed) := by
  funext ⟨c', d'⟩
  by_cases same : (c', d') = (c, d)
  · obtain ⟨rfl, rfl⟩ := Prod.mk.inj same
    rw [Function.update_self, lastArmed_armed]
  · rw [Function.update_of_ne same]
    refine lastArmed_idle c' d' log _ (fun event member => ?_)
    rw [List.mem_singleton.mp member, armedBy, if_neg]
    rintro ⟨rfl, rfl⟩
    exact same rfl

theorem scheduleDelayTimer_safely (now : ClockReading) (r : Relay) (circ : Circuit)
    (alive : r.circuits c = some circ) (free : (circ.hop d).delayTimer = none)
    (nonempty : (circ.hop d).delayQueue ≠ []) : Safely r (scheduleDelayTimer c d now r) := by
  unfold scheduleDelayTimer
  rw [withCircuit_some r c circ _ alive]
  cases queue : (circ.hop d).delayQueue with
  | nil => exact absurd queue nonempty
  | cons cell rest =>
    refine ⟨alive_update r _ c circ _ alive rfl, fun i info has => ?_, fun sane => ⟨?_, ?_⟩⟩
    · by_cases isNew : i = r.brk
      · have named : some ⟨c, d⟩ = some info := by
          rw [← has, isNew]
          exact (Function.update_self r.brk _ r.delayInfos).symm
        rw [← Option.some.inj named, alive]
        exact Or.inr rfl
      · exact Or.inl ((Function.update_of_ne isNew _ r.delayInfos).symm.trans has)
    · have unarmed : (arenaOf r).slot (c, d) = none := by
        simp [arenaOf, slotOf, alive, free]
      have armed := sane.owned.arm (c, d) ⟨now.val, timerDelay cell.readyTv now.val⟩ unarmed
      refine cast (congrArg Owned ?_) armed
      simp only [arenaOf, arm, Arena.mk.injEq]
      refine ⟨Eq.symm (slotOf_setHop r _ c d circ
        { circ.hop d with delayTimer := some (r.brk + 1) } alive rfl), ?_, ?_, rfl,
        (lastArmed_update c d r.log _).symm, ?_⟩
      · exact (map_update (Option.map timerEntry) r.timers (r.brk + 1)
          (some ⟨r.brk, some ⟨now.val, timerDelay cell.readyTv now.val⟩⟩)).symm
      · exact (map_update (Option.map slotNamed) r.delayInfos r.brk (some ⟨c, d⟩)).symm
      · simp [lostBy]
    · exact noFaults_append _ _ sane.noFaults (by simp [NoFaults])

theorem timerFree_delayInfos (r : Relay) : (timerFree t r).delayInfos = r.delayInfos := by
  unfold timerFree
  split
  · rfl
  · split
    · rfl
    · split
      · rfl
      · rfl

/-- A timer is freed together with the circuit's pointer to it. -/
theorem dropTimer_safely (alive : r.circuits c = some circ) (dropped : hop.delayTimer = none) :
    Safely r ((timerFree (circ.hop d).delayTimer r).setCircuit c (circ.setHop d hop)) := by
  have circuits : ((timerFree (circ.hop d).delayTimer r).setCircuit c
      (circ.setHop d hop)).circuits = Function.update r.circuits c (some (circ.setHop d hop)) := by
    rw [setCircuit_circuits, timerFree_circuits]
  refine ⟨alive_update r _ c circ _ alive circuits, fun i info has => Or.inl ?_, fun sane => ?_⟩
  · rw [← has]
    exact (congrFun (timerFree_delayInfos _ r) i).symm
  have slots := slotOf_setHop r _ c d circ hop alive circuits
  cases has : (circ.hop d).delayTimer with
  | none =>
    exact Neutral.sane (neutral_record r _ c circ (circ.setHop d hop) [] alive rfl rfl le_rfl rfl
      (fun e => setHop_delayTimer circ d e hop (dropped.trans has.symm)) (by simp [timerFree])
      (by simp [TimerQuiet])) sane
  | some t =>
    have slot : (arenaOf r).slot (c, d) = some t := by simp [arenaOf, slotOf, alive, has]
    obtain ⟨arg, pending, live⟩ := sane.owned.slot_live (c, d) t slot
    obtain ⟨timer, allocated, fields⟩ := Option.map_eq_some_iff.mp live
    obtain ⟨rfl, rfl⟩ := Prod.mk.inj fields
    have freed := sane.owned.disarm (c, d) t timer.arg timer.pending slot live
    rw [has] at slots
    cases pending : timer.pending with
    | none =>
      rw [pending] at freed
      have result : timerFree (some t) r = r.setTimer t none := by
        simp only [timerFree, allocated, pending]
      rw [result] at slots ⊢
      refine ⟨cast (congrArg Owned ?_) freed, sane.noFaults⟩
      simp only [arenaOf, disarm, Arena.mk.injEq, slots, dropped, true_and]
      exact ⟨(map_update (Option.map timerEntry) r.timers t none).symm, rfl, rfl, rfl, rfl⟩
    | some armed =>
      rw [pending] at freed
      have result : timerFree (some t) r = (r.setTimer t none).emit (.unscheduled timer.arg) := by
        simp only [timerFree, allocated, pending]
      rw [result] at slots ⊢
      refine ⟨cast (congrArg Owned ?_) freed,
        noFaults_append _ _ sane.noFaults (by simp [NoFaults])⟩
      simp only [arenaOf, disarm, Arena.mk.injEq, slots, dropped, true_and]
      refine ⟨(map_update (Option.map timerEntry) r.timers t none).symm, rfl, rfl, ?_, ?_⟩
      · funext k
        exact (lastArmed_idle k.1 k.2 r.log [.unscheduled timer.arg] (by simp [armedBy])).symm
      · simp [lostBy]

theorem timerFree_setCircuit (r : Relay) (c : CircPtr) (circ : Circuit) :
    timerFree t (r.setCircuit c circ) = (timerFree t r).setCircuit c circ := by
  unfold timerFree
  cases t with
  | none => rfl
  | some t =>
    have timers : (r.setCircuit c circ).timers t = r.timers t := rfl
    simp only [timers]
    cases r.timers t with
    | none => rfl
    | some timer => cases pending : timer.pending with
      | none | some armed => simp only [pending]; rfl

theorem setCircuit_setCircuit (first second : Circuit) :
    (r.setCircuit c first).setCircuit c second = r.setCircuit c second := by
  simp only [setCircuit, Function.update_idem]

theorem dropTimers_safely (p n : Hop) (alive : r.circuits c = some circ)
    (droppedP : p.delayTimer = none) (droppedN : n.delayTimer = none) :
    Safely r ((timerFree circ.n.delayTimer (timerFree circ.p.delayTimer r)).setCircuit c
      ((circ.setHop .inbound p).setHop .outbound n)) := by
  have inbound := dropTimer_safely r c .inbound circ p alive droppedP
  have outbound := dropTimer_safely
    ((timerFree circ.p.delayTimer r).setCircuit c (circ.setHop .inbound p)) c .outbound
    (circ.setHop .inbound p) n (Function.update_self c _ _) droppedN
  rw [timerFree_setCircuit, setCircuit_setCircuit] at outbound
  exact inbound.trans outbound

theorem freeDelayData_safely (r : Relay) (live : (r.circuits c).isSome) :
    Safely r (freeDelayData c r) := by
  refine withCircuit_safely r c _ live (fun circ alive => ?_)
  have cleared : Safely r ((r.emit (.cleared c .inbound circ.p.delayQueue)).emit
      (.cleared c .outbound circ.n.delayQueue)) := by
    refine safely_record r _ c circ circ [.cleared c .inbound circ.p.delayQueue,
      .cleared c .outbound circ.n.delayQueue] alive rfl rfl le_rfl ?_ (fun _ => rfl) ?_
      (by simp [TimerQuiet, armedBy, lostBy])
    · rw [emit_circuits, emit_circuits, ← alive, Function.update_eq_self]
    · simp
  exact cleared.trans (dropTimers_safely _ c circ
    { circ.p with delayQueue := [], delayTimer := none }
    { circ.n with delayQueue := [], delayTimer := none } alive rfl rfl)

end

theorem markedCircuitFreeCells_safely (r : Relay) (live : (r.circuits c).isSome) :
    Safely r (markedCircuitFreeCells c r) := by
  refine withCircuit_safely r c _ live (fun circ alive => ?_)
  split
  · exact Safely.refl r
  · have outbound := clearChanCells_safely c .outbound r live
    have stillLive := (outbound.alive c).trans live
    split
    · have inbound := clearChanCells_safely c .inbound _ stillLive
      exact (outbound.trans inbound).trans
        (freeDelayData_safely c _ ((inbound.alive c).trans stillLive))
    · exact outbound

theorem killCircuit_safely (r : Relay) (live : (r.circuits c).isSome) :
    Safely r (killCircuit cfg c r) := by
  have marked := circuitMarkForClose_safely cfg c r live
  exact marked.trans (markedCircuitFreeCells_safely c _ ((marked.alive c).trans live))

theorem cellQueuesCheckSize_safely (oomKills : Option (List CircPtr)) (r : Relay)
    (live : ∀ kills ∈ oomKills, ∀ k ∈ kills, (r.circuits k).isSome) :
    Safely r (cellQueuesCheckSize cfg oomKills r) := by
  cases oomKills with
  | none => exact Safely.refl r
  | some kills =>
    have each := live kills rfl
    clear live
    induction kills generalizing r with
    | nil => exact Safely.refl r
    | cons k rest ih =>
      have killed := killCircuit_safely cfg k r (each k List.mem_cons_self)
      refine killed.trans (ih _ (fun other member => ?_))
      exact (killed.alive other).trans (each other (List.mem_cons_of_mem k member))

theorem delayOrAppendCell_safely (copy : PackedCell) (c : CircPtr) (chan : ChanPtr)
    (d : CellDirection) (env : AppendEnv) (r : Relay) (live : (r.circuits c).isSome) :
    Safely r (delayOrAppendCell cfg copy c chan d env r) := by
  refine withCircuit_safely r c _ live (fun circ alive => ?_)
  have queued : ∀ copy hop, hop.delayTimer = (circ.hop d).delayTimer →
      Safely r ((r.emit (.accepted c d chan (circ.hop d).circId copy)).setCircuit c
        (circ.setHop d hop)) := by
    intro copy hop same
    exact safely_record r _ c circ _ [.accepted c d chan (circ.hop d).circId copy] alive rfl rfl
      le_rfl rfl (fun e => setHop_delayTimer circ d e hop same) rfl
      (by simp [TimerQuiet, armedBy, lostBy])
  dsimp only
  split
  · have delayed := queued
      { copy with readyTv := getReadyTimeval cfg circ d env.readyNow env.sample }
      { circ.hop d with
        lastReadyTv := getReadyTimeval cfg circ d env.readyNow env.sample
        delayQueue := (circ.hop d).delayQueue ++
          [{ copy with readyTv := getReadyTimeval cfg circ d env.readyNow env.sample }] } rfl
    split
    · next noTimer =>
      refine delayed.trans (scheduleDelayTimer_safely c d env.scheduleNow _ _
        (Function.update_self c _ _) ?_ ?_)
      · rw [hop_setHop]
        exact noTimer
      · rw [hop_setHop]
        simp
    · exact delayed
  · exact queued copy { circ.hop d with chanCells := (circ.hop d).chanCells ++ [copy] } rfl

theorem blockStreams_safely (d : CellDirection) (streamsBlocked : Bool) (fromstream : UInt16)
    (r : Relay) (live : (r.circuits c).isSome) :
    Safely r (blockStreams cfg c chan d streamsBlocked fromstream r) := by
  refine withCircuit_safely r c _ live (fun circ alive => ?_)
  dsimp only
  generalize (if circ.magic = .orCircuit then (circ.hop d).delayQueue.length else 0) = delayed
  split
  · exact setStreamsBlockedOnCirc_safely c chan true 0 r live
  · split
    · exact setStreamsBlockedOnCirc_safely c chan true fromstream r live
    · exact Safely.refl r

theorem appendCellToCircuitQueue_safely (cell : Cell) (d : CellDirection) (fromstream : UInt16)
    (env : AppendEnv) (r : Relay) (live : (r.circuits c).isSome)
    (kills : ∀ kills ∈ env.oomKills, ∀ k ∈ kills, (r.circuits k).isSome) :
    Safely r (appendCellToCircuitQueue cfg c chan cell d fromstream env r) := by
  refine withCircuit_safely r c _ live (fun circ alive => ?_)
  split
  · exact Safely.refl r
  · split
    · exact circuitMarkForClose_safely cfg c r live
    · have grown : Safely r { r with brk := r.brk + 1 } :=
        safely_record r _ c circ circ [] alive rfl rfl (Nat.le_add_right _ 1)
          (by rw [← alive, Function.update_eq_self]) (fun _ => rfl) (by simp)
          (by simp [TimerQuiet])
      have queued := grown.trans (delayOrAppendCell_safely cfg
        (packedCellCopy r.brk cell (cfg.channel chan).wideCircIds env.stamp) c chan d env _ live)
      have checked := queued.trans (cellQueuesCheckSize_safely cfg env.oomKills _
        (fun ks member k isKilled => (queued.alive k).trans (kills ks member k isKilled)))
      have stillLive := (checked.alive c).trans live
      refine checked.trans (withCircuit_safely _ c _ stillLive (fun closed _ => ?_))
      split
      · exact Safely.refl _
      · exact blockStreams_safely cfg c chan d _ fromstream _ stillLive

theorem Sane.scheduled {r : Relay} (sane : Sane r) (t : TimerPtr) (arg : InfoPtr) (armed : Armed)
    (pending : r.timers t = some ⟨arg, some armed⟩) :
    ∃ c d circ, r.circuits c = some circ ∧ (circ.hop d).delayTimer = some t ∧
      r.delayInfos arg = some ⟨c, d⟩ ∧ lastArmed c d r.log = some armed := by
  have entry : (arenaOf r).timers t = some (arg, some armed) := by
    simp [arenaOf, pending, timerEntry]
  obtain ⟨⟨c, d⟩, slot⟩ := sane.owned.timer_owned t arg (some armed) entry
  obtain ⟨block, last⟩ := sane.owned.pending_block (c, d) t arg armed slot entry
  obtain ⟨circ, alive, has⟩ := Option.bind_eq_some_iff.mp slot
  obtain ⟨info, allocated, named⟩ := Option.map_eq_some_iff.mp block
  obtain ⟨rfl, rfl⟩ := Prod.mk.inj named
  exact ⟨_, _, circ, alive, has, allocated, last⟩

theorem Sane.owner_unique {r : Relay} (sane : Sane r) {c c' : CircPtr} {d d' : CellDirection}
    {circ circ' : Circuit} {t : TimerPtr} (alive : r.circuits c = some circ)
    (has : (circ.hop d).delayTimer = some t) (alive' : r.circuits c' = some circ')
    (has' : (circ'.hop d').delayTimer = some t) : c = c' ∧ d = d' := by
  have slot : (arenaOf r).slot (c, d) = some t := by simp [arenaOf, slotOf, alive, has]
  have slot' : (arenaOf r).slot (c', d') = some t := by simp [arenaOf, slotOf, alive', has']
  exact Prod.mk.inj (sane.owned.slot_unique _ _ t slot slot')

theorem fired_safely (t : TimerPtr) (arg : InfoPtr) (armed : Armed)
    (pending : r.timers t = some ⟨arg, some armed⟩) :
    Safely r ((r.setTimer t (some ⟨arg, none⟩)).setDelayInfo arg none) := by
  refine ⟨fun _ => rfl, fun i info has => ?_, fun sane => ⟨?_, sane.noFaults⟩⟩
  · by_cases released : i = arg
    · have gone : (none : Option DelayInfo) = some info := by
        rw [← has, released]
        exact (Function.update_self arg _ r.delayInfos).symm
      cases gone
    · exact Or.inl ((Function.update_of_ne released _ r.delayInfos).symm.trans has)
  · have entry : (arenaOf r).timers t = some (arg, some armed) := by
      simp [arenaOf, pending, timerEntry]
    refine cast (congrArg Owned ?_) (sane.owned.fire t arg armed entry)
    simp only [arenaOf, fire, Arena.mk.injEq]
    refine ⟨rfl, ?_, ?_, rfl, rfl, rfl⟩
    · exact (map_update (Option.map timerEntry) r.timers t (some ⟨arg, none⟩)).symm
    · exact (map_update (Option.map slotNamed) r.delayInfos arg none).symm

theorem moveReadyCells_safely (before : Circuit) (hop : Hop) (now : Timeval) (r : Relay)
    (alive : r.circuits c = some before)
    (same : ∀ e, ((circ.setHop d hop).hop e).delayTimer = (before.hop e).delayTimer) :
    Safely r (moveReadyCells c d chan circ hop now r) := by
  refine safely_record r _ c before (circ.setHop d (hop.releaseReady now))
    ((hop.readyCells now).map (.released c d chan hop.circId now)) alive rfl rfl le_rfl rfl
    (fun e => ?_) rfl ?_
  · rw [← same e]
    by_cases own : e = d
    · rw [own, hop_setHop, hop_setHop]
      rfl
    · rw [hop_setHop_of_ne _ _ _ _ own, hop_setHop_of_ne _ _ _ _ own]
  · intro event member
    obtain ⟨cell, _, rfl⟩ := List.mem_map.mp member
    simp [armedBy, lostBy]

theorem fireTimer_safely (t : TimerPtr) (now scheduleNow : ClockReading) (r : Relay)
    (sane : Sane r) : Safely r (fireTimer t now scheduleNow r) := by
  unfold fireTimer
  cases allocated : r.timers t with
  | none => exact Safely.refl r
  | some timer =>
    obtain ⟨arg, pending⟩ := timer
    cases pending with
    | none => exact Safely.refl r
    | some armed =>
      obtain ⟨c, d, circ, alive, has, block, _⟩ := sane.scheduled t arg armed allocated
      have fired := fired_safely r t arg armed allocated
      have info : (r.setTimer t (some ⟨arg, none⟩)).delayInfos arg = some ⟨c, d⟩ := block
      simp only [cellReadyCallback, info]
      rw [withCircuit_some ((r.setTimer t (some ⟨arg, none⟩)).setDelayInfo arg none)
        c circ _ alive]
      split
      · exact fired
      · split
        · exact fired
        · have dropped := fired.trans (dropTimer_safely _ c d circ
            { circ.hop d with delayTimer := none } alive rfl)
          split
          · exact dropped
          · next chan hasChan =>
            have moved := dropped.trans (moveReadyCells_safely c d chan circ _
              { circ.hop d with delayTimer := none } now.val _ (Function.update_self c _ _)
              (fun _ => rfl))
            split
            · next left =>
              refine moved.trans (scheduleDelayTimer_safely c d scheduleNow _ _
                (Function.update_self c _ _) ?_ ?_)
              · rw [hop_setHop]
                rfl
              · rw [hop_setHop]
                exact List.ne_nil_of_length_pos left
            · exact moved

/-! ## Circuits that begin and end -/

/-- Origin circuits have no delay timers. -/
def OriginIdle (life : Life) : Prop :=
  life.circ.magic = .originCircuit → ∀ d, (life.circ.hop d).delayTimer = none

theorem lifeStep_originIdle (life final : Life) (step : LifeStep cfg r op c life final)
    (idle : OriginIdle life) : OriginIdle final := by
  intro isOrigin d
  rw [(lifeStep_keeps cfg r op c life final step).magic] at isOrigin
  have change := lifeStep_delay cfg r op c life final step d
  have result : (final.circ.hop d).delayTimer = (sideOf c d final).timer := rfl
  rw [result]
  generalize sideOf c d final = side at change
  cases change with
  | same => exact idle isOrigin d
  | enqueue chan cell fromstream env copy t isOp first isOpen delayed ready =>
    have isOr := delayed.1
    rw [isOrigin] at isOr
    cases isOr
  | gone => rfl
  | release t next now scheduleNow armed isOp fires first isOpen isOr =>
    rw [isOrigin] at isOr
    cases isOr
  | clear marked => rfl

theorem originIdle_created (created : Created cfg op circ) : OriginIdle ⟨[], circ⟩ := by
  intro _ d
  obtain ⟨chan, circId, fresh⟩ := created_hop cfg op circ created d
  rw [fresh]
  rfl

theorem removed_sane (r : Relay) (idle : ∀ d, slotOf r (c, d) = none) (sane : Sane r) :
    Sane { r with circuits := Function.update r.circuits c none } := by
  have slots : slotOf { r with circuits := Function.update r.circuits c none } = slotOf r := by
    funext ⟨c', d⟩
    by_cases own : c' = c
    · rw [own, idle d]
      simp [slotOf]
    · simp [slotOf, Function.update_of_ne own]
  have arena : arenaOf { r with circuits := Function.update r.circuits c none } = arenaOf r := by
    simp only [arenaOf, slots]
  exact ⟨arena ▸ sane.owned, sane.noFaults⟩

theorem slotOf_of_life (life : Life) (live : lifeOf r c = some life) :
    slotOf r (c, d) = (life.circ.hop d).delayTimer := by
  simp [slotOf, live_of_lifeOf live]

theorem circuitFree_sane (r : Relay) (life : Life) (live : lifeOf r c = some life)
    (idle : OriginIdle life) (sane : Sane r) : Sane (circuitFree c r) := by
  have alive := live_of_lifeOf live
  unfold circuitFree
  rw [withCircuit_some r c life.circ _ alive]
  split
  · have inbound := clearChanCells_rewrites c .inbound r life live
    have freed := freeDelayData_rewrites c _ _ inbound.own
    have outbound := clearChanCells_rewrites c .outbound _ _ freed.own
    have first := clearChanCells_safely c .inbound r (by rw [alive]; rfl)
    have second := first.trans (freeDelayData_safely c _ ((first.alive c).trans (by rw [alive]; rfl)))
    have third := second.trans
      (clearChanCells_safely c .outbound _ ((second.alive c).trans (by rw [alive]; rfl)))
    refine removed_sane c _ (fun d => ?_) (third.sane sane)
    rw [slotOf_of_life _ c d _ outbound.own]
    cases d <;> rfl
  · next notOr =>
    have isOrigin : life.circ.magic = .originCircuit := by
      cases magic : life.circ.magic with
      | orCircuit => exact absurd magic notOr
      | originCircuit => rfl
    have outbound := clearChanCells_rewrites c .outbound r life live
    have safely := clearChanCells_safely c .outbound r (by rw [alive]; rfl)
    refine removed_sane c _ (fun d => ?_) (safely.sane sane)
    rw [slotOf_of_life _ c d _ outbound.own]
    have same := setHop_delayTimer life.circ .outbound d
      { life.circ.hop .outbound with chanCells := [] } rfl
    exact same.trans (idle isOrigin d)

theorem detachChannel_rewrites (r : Relay) (life : Life) (live : lifeOf r c = some life) :
    ∃ final, Rewrites r (detachChannel c d r) c final ∧
      final.circ.magic = life.circ.magic ∧
      ∀ e, (final.circ.hop e).delayTimer = (life.circ.hop e).delayTimer := by
  unfold detachChannel
  rw [withCircuit_some r c life.circ _ (live_of_lifeOf live)]
  split
  · exact ⟨life, rewrites_same r r c life live le_rfl (fun other => SameAt.refl other r), rfl,
      fun _ => rfl⟩
  · next chan hasChan =>
    have cleared : ∃ e, Rewrites r (circuitClearCellQueue c chan r) c
        (life.setHop [.cleared c e (life.circ.hop e).chanCells] e
          { life.circ.hop e with chanCells := [] }) := by
      unfold circuitClearCellQueue
      rw [withCircuit_some r c life.circ _ (live_of_lifeOf live)]
      split
      · exact ⟨.outbound, clearChanCells_rewrites c .outbound r life live⟩
      · exact ⟨.inbound, clearChanCells_rewrites c .inbound r life live⟩
    obtain ⟨e, clears⟩ := cleared
    have detaches := circuitSetCircidChan_rewrites c d 0 none _ _ clears.own
    refine ⟨_, clears.trans detaches, ?_, fun k => ?_⟩
    · simp [Life.setHop, Life.record]
    · have emptied := setHop_delayTimer life.circ e k { life.circ.hop e with chanCells := [] } rfl
      rw [← emptied]
      exact setHop_delayTimer _ d k { (life.circ.setHop e { life.circ.hop e with
        chanCells := [] }).hop d with chan := none, circId := 0 } rfl

theorem circuitAboutToFree_idle (r : Relay) (life : Life) (live : lifeOf r c = some life)
    (idle : OriginIdle life) :
    ∃ final, lifeOf (circuitAboutToFree c r) c = some final ∧ OriginIdle final := by
  unfold circuitAboutToFree
  rw [withCircuit_some r c life.circ _ (live_of_lifeOf live)]
  obtain ⟨first, outbound, magic, timers⟩ := detachChannel_rewrites c .outbound r life live
  have firstIdle : OriginIdle first := fun isOrigin d =>
    (timers d).trans (idle (magic ▸ isOrigin) d)
  split
  · obtain ⟨second, inbound, magic', timers'⟩ := detachChannel_rewrites c .inbound _ _ outbound.own
    exact ⟨second, inbound.own, fun isOrigin d =>
      (timers' d).trans (firstIdle (magic' ▸ isOrigin) d)⟩
  · exact ⟨first, outbound.own, firstIdle⟩

theorem circuitAboutToFree_safely (r : Relay) (live : (r.circuits c).isSome) :
    Safely r (circuitAboutToFree c r) := by
  refine withCircuit_safely r c _ live (fun circ alive => ?_)
  have outbound := detachChannel_safely c .outbound r live
  split
  · exact outbound.trans (detachChannel_safely c .inbound _ ((outbound.alive c).trans live))
  · exact outbound

theorem closeCircuit_sane (r : Relay) (life : Life) (live : lifeOf r c = some life)
    (idle : OriginIdle life) (sane : Sane r) : Sane (closeCircuit c r) := by
  obtain ⟨final, stillLive, stillIdle⟩ := circuitAboutToFree_idle c r life live idle
  have isSome : (r.circuits c).isSome := by rw [live_of_lifeOf live]; rfl
  exact circuitFree_sane c _ final stillLive stillIdle
    ((circuitAboutToFree_safely c r isSome).sane sane)

theorem allocCircuit_sane (r : Relay) (fresh : r.circuits r.brk = none)
    (idle : ∀ d, (circ.hop d).delayTimer = none) (sane : Sane r) : Sane (allocCircuit circ r) := by
  suffices slots : ∀ k, slotOf (allocCircuit circ r) k = slotOf r k by
    have neutral : Neutral r (allocCircuit circ r) :=
      ⟨rfl, rfl, Nat.le_add_right _ 1, slots, [], by simp [allocCircuit],
        by simp [TimerQuiet]⟩
    exact neutral.sane sane
  rintro ⟨c, d⟩
  by_cases own : c = r.brk
  · rw [own]
    simp [slotOf, allocCircuit, fresh, idle d]
  · simp [slotOf, allocCircuit, Function.update_of_ne own]

theorem lastArmed_history : lastArmed c d (history c log) = lastArmed c d log := by
  unfold lastArmed history
  rw [List.filterMap_filter]
  refine congrArg List.getLast? (List.filterMap_congr (fun event _ => ?_))
  cases event with
  | armed c' d' armed =>
    by_cases same : c' = c
    · simp [eventCircuit, armedBy, same]
    · simp [eventCircuit, armedBy, same]
  | _ => simp [armedBy]

theorem Sane.fires {r : Relay} (sane : Sane r) (c : CircPtr) (d : CellDirection) (t : TimerPtr)
    (armed : Armed) (fires : Fires r c d t armed) (life : Life) (live : lifeOf r c = some life) :
    (life.circ.hop d).delayTimer = some t ∧ lastArmed c d life.history = some armed := by
  obtain ⟨arg, timer, block⟩ := fires.timer
  obtain ⟨c', d', circ, alive, has, named, last⟩ := sane.scheduled t arg armed timer
  rw [block, Option.some.injEq, DelayInfo.mk.injEq] at named
  obtain ⟨rfl, rfl⟩ := named
  obtain ⟨alive', past⟩ := (lifeOf_eq_some r c life).mp live
  rw [alive, Option.some.injEq] at alive'
  rw [past, lastArmed_history, ← alive']
  exact ⟨has, last⟩

/-! ## Every run -/

/-- What holds of the heap of every relay. -/
structure Orderly (r : Relay) : Prop where
  fresh : Fresh r
  idle : ∀ c life, lifeOf r c = some life → OriginIdle life
  sane : Sane r

theorem exec_safely (sane : Sane r) (enabled : Enabled cfg r op)
    (notOr : ∀ chan circId policy, op ≠ .createOr chan circId policy)
    (notOrigin : ∀ held half, op ≠ .createOrigin held half) (notClose : ∀ c, op ≠ .close c) :
    Safely r (exec cfg op r) := by
  cases op with
  | createOr chan circId policy => exact absurd rfl (notOr chan circId policy)
  | createOrigin held half => exact absurd rfl (notOrigin held half)
  | attachStream c edge =>
    obtain ⟨circ, alive, _⟩ := enabled
    exact attachStream_safely c edge r (Option.isSome_of_mem alive)
  | append c chan cell d fromstream env =>
    obtain ⟨⟨circ, alive, _⟩, kills⟩ := enabled
    exact appendCellToCircuitQueue_safely cfg c chan cell d fromstream env r
      (Option.isSome_of_mem alive) kills
  | fire t now scheduleNow => exact fireTimer_safely t now scheduleNow r sane
  | flush c chan writeOk =>
    obtain ⟨circ, alive, _⟩ := enabled
    exact channelFlushCircuit_safely cfg c chan writeOk r (Option.isSome_of_mem alive)
  | truncate c =>
    obtain ⟨circ, alive, _⟩ := enabled
    exact truncateNextHop_safely cfg c r (Option.isSome_of_mem alive)
  | connect c chan circId =>
    obtain ⟨circ, alive, _⟩ := enabled
    exact circuitSetCircidChan_safely c .outbound circId (some chan) r (Option.isSome_of_mem alive)
  | mark c => exact circuitMarkForClose_safely cfg c r enabled
  | unlink c d =>
    obtain ⟨circ, alive, _⟩ := enabled
    have detached := circuitSetCircidChan_safely c d 0 none r (Option.isSome_of_mem alive)
    exact detached.trans (circuitMarkForClose_safely cfg c _
      ((detached.alive c).trans (Option.isSome_of_mem alive)))
  | close c => exact absurd rfl (notClose c)

section

variable (orderly : Orderly r) (taken : Step cfg r op after)

include orderly taken

theorem step_sane : Sane after := by
  obtain ⟨enabled, rfl⟩ := taken
  have created : ∀ circ, Created cfg op circ → Sane (allocCircuit circ r) := by
    intro circ created
    refine allocCircuit_sane circ r (orderly.fresh r.brk le_rfl).1 (fun d => ?_) orderly.sane
    obtain ⟨chan, circId, fresh⟩ := created_hop cfg op circ created d
    rw [fresh]
    rfl
  cases op with
  | createOr chan circId policy => exact created _ (.orCircuit chan circId policy)
  | createOrigin held half => exact created _ (.originCircuit held half)
  | close c =>
    obtain ⟨circ, alive⟩ := Option.isSome_iff_exists.mp enabled
    have live := lifeOf_of_circuits alive
    exact closeCircuit_sane c r _ live (orderly.idle c _ live) orderly.sane
  | _ =>
    exact (exec_safely cfg r _ orderly.sane enabled (by simp) (by simp) (by simp)).sane
      orderly.sane

theorem step_orderly : Orderly after :=
  ⟨step_fresh after taken orderly.fresh,
    step_keeps after taken orderly.fresh (fun _ op circ => originIdle_created cfg op circ)
      (lifeStep_originIdle cfg r op) orderly.idle,
    step_sane cfg r after op orderly taken⟩

end

section

variable {ts : List (Transition Relay Op)}

theorem orderly_initial : Orderly initial := by
  refine ⟨fun _ _ => ⟨rfl, rfl⟩, fun c life live => by simp [lifeOf, initial] at live,
    ?_, fun _ => List.not_mem_nil⟩
  constructor
  all_goals simp [arenaOf, slotOf, initial]

theorem run_orderly_at {cfg : Config} {r : Relay} (run : RelayRun cfg ts r)
    (x : Transition Relay Op) (member : x ∈ ts) : Orderly x.pre ∧ Orderly x.post :=
  run.invariant_at orderly_initial (fun before op after => step_orderly cfg before after op)
    x member

end

end RendezMix.Guarantees
