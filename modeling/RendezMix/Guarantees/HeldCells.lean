import RendezMix.Guarantees.TimerOwnership

/-!
# How many cells a circuit holds

The relay limits the cells that a circuit holds in one direction and blocks the
streams that feed it. Both depend on how the number of cells in the two queues of
a direction changes: it grows only when an append accepts a cell.
-/
namespace RendezMix.Guarantees
open Source Library.Runs Relation

section

variable (cfg : Config) (r : Relay) (op : Op) (c : CircPtr) (circ : Circuit) (chan : ChanPtr)
  (d : CellDirection) (life final : Life)

section

variable (e : CellDirection) (hop : Hop)

theorem lifeStep_history (step : LifeStep cfg r op c life final) :
    life.history <+: final.history := by
  have schedule : ∀ (first : Life) d now t, life.history <+: first.history →
      life.history <+: (first.schedule c d now t).history := by
    intro first d now t grows
    unfold Life.schedule
    split
    · exact grows
    · exact grows.trans (List.prefix_append _ _)
  have markForClose : ∀ first : Life, life.history <+: first.history →
      life.history <+: (first.markForClose cfg c).history := by
    intro first grows
    unfold Life.markForClose
    split
    · exact grows
    · exact grows.trans (List.prefix_append _ _)
  cases step with
  | acceptDelayed queued copy chan cell e fromstream env t isOp first isOpen room delayed copyEq
      queuedEq =>
    have grows : life.history <+: queued.history := by
      rw [queuedEq]
      exact List.prefix_append _ _
    split
    · exact schedule queued e _ t grows
    · exact grows
  | release moved e t next chan now scheduleNow armed isOp fires first isOpen isOr hasChan
      movedEq =>
    refine schedule moved e _ next ?_
    rw [movedEq]
    exact List.prefix_append _ _
  | mark => exact markForClose life List.prefix_rfl
  | unlink e isOp first hasChan => exact markForClose _ (List.prefix_append _ _)
  | _ => exact List.prefix_append _ _

theorem path_history (path : ReflTransGen (LifeStep cfg r op c) life final) :
    life.history <+: final.history := by
  induction path with
  | refl => exact List.prefix_rfl
  | tail _ step grows => exact grows.trans (lifeStep_history cfg r op c _ _ step)

/-! ## The number of held cells -/

theorem held_setHop_self : (circ.setHop d hop).held d = hop.chanCells ++ hop.delayQueue := by
  simp [Circuit.held]

theorem held_setHop_le
    (fewer : hop.chanCells.length + hop.delayQueue.length ≤ (circ.held e).length) :
    ((circ.setHop e hop).held d).length ≤ (circ.held d).length := by
  by_cases same : d = e
  · subst same
    rw [held_setHop_self, List.length_append]
    exact fewer
  · simp [Circuit.held, Circuit.hop_setHop_of_ne _ _ _ _ same]

theorem held_of_lineOf (same : lineOf d final = lineOf d life) :
    final.circ.held d = life.circ.held d :=
  congrArg (fun line => line.out ++ line.held) same

theorem held_schedule (now : ClockReading) (t : TimerPtr) (life : Life) :
    (life.schedule c e now t).circ.held d = life.circ.held d :=
  held_of_lineOf d _ _ (lineOf_schedule c d e now t life)

theorem held_markForClose : (life.markForClose cfg c).circ.held d = life.circ.held d :=
  held_of_lineOf d _ _ (lineOf_markForClose cfg c d life)

theorem held_setStreamsBlocked (block : Bool) (streamId : UInt16) (d : CellDirection) :
    (circ.setStreamsBlocked chan block streamId).held d = circ.held d := by
  obtain ⟨flag, hop⟩ := setStreamsBlocked_hop circ chan block streamId d
  simp [Circuit.held, hop]

theorem held_releaseReady (now : Timeval) (hop : Hop) :
    (hop.releaseReady now).chanCells ++ (hop.releaseReady now).delayQueue =
      hop.chanCells ++ hop.delayQueue := by
  have split := releaseLoop_split now 0 hop.delayQueue
  simp only [Hop.releaseReady, Hop.readyCells, List.append_assoc]
  rw [← split]

end

section

variable (step : LifeStep cfg r op c life final)

include step

/-- The number of held cells grows only when an append accepts a cell, and then
by one. -/
theorem lifeStep_held (d : CellDirection) :
    (final.circ.held d).length ≤ (life.circ.held d).length ∨
      ∃ chan cell fromstream env, op = .append c chan cell d fromstream env ∧
        lifeOf r c = some life ∧ life.circ.markedForClose = false ∧
        (life.circ.hop d).chanCells.length < cfg.maxQueueSize d ∧
        (final.circ.held d).length = (life.circ.held d).length + 1 := by
  cases step with
  | acceptDirect chan cell e fromstream env isOp first isOpen room direct =>
    by_cases same : d = e
    · subst same
      refine Or.inr ⟨chan, cell, fromstream, env, isOp, first, isOpen, room, ?_⟩
      simp only [Life.setHop, Life.record, Circuit.held, Circuit.hop_setHop, List.length_append,
        List.length_singleton]
      omega
    · refine Or.inl (le_of_eq ?_)
      simp [Life.setHop, Life.record, Circuit.held, Circuit.hop_setHop_of_ne _ _ _ _ same]
  | acceptDelayed queued copy chan cell e fromstream env t isOp first isOpen room delayed copyEq
      queuedEq =>
    have scheduled : ∀ final : Life, final.circ.held d = queued.circ.held d →
        (final.circ.held d).length ≤ (life.circ.held d).length ∨
          ∃ chan cell fromstream env, op = .append c chan cell d fromstream env ∧
            lifeOf r c = some life ∧ life.circ.markedForClose = false ∧
            (life.circ.hop d).chanCells.length < cfg.maxQueueSize d ∧
            (final.circ.held d).length = (life.circ.held d).length + 1 := by
      intro final held
      rw [held, queuedEq]
      by_cases same : d = e
      · subst same
        refine Or.inr ⟨chan, cell, fromstream, env, isOp, first, isOpen, room, ?_⟩
        simp only [Life.setHop, Life.record, Circuit.held, Circuit.hop_setHop,
          List.length_append, List.length_singleton]
        omega
      · refine Or.inl (le_of_eq ?_)
        simp [Life.setHop, Life.record, Circuit.held, Circuit.hop_setHop_of_ne _ _ _ _ same]
    split
    · exact scheduled _ (held_schedule ..)
    · exact scheduled _ rfl
  | release moved e t next chan now scheduleNow armed isOp fires first isOpen isOr hasChan
      movedEq =>
    refine Or.inl ?_
    rw [held_schedule, movedEq]
    refine held_setHop_le life.circ d e _ (le_of_eq ?_)
    rw [← List.length_append]
    exact congrArg List.length (held_releaseReady now.val (life.circ.hop e))
  | popFailed e chan cell rest isOp first dir head
  | popWritten e chan cell rest isOp first dir head =>
    refine Or.inl (held_setHop_le life.circ d e _ ?_)
    simp only [Circuit.held, head, List.length_append, List.length_cons]
    omega
  | unblock => exact Or.inl (le_of_eq (congrArg List.length (held_setStreamsBlocked ..)))
  | block => exact Or.inl (le_of_eq (congrArg List.length (held_setStreamsBlocked ..)))
  | mark => exact Or.inl (le_of_eq (congrArg List.length (held_markForClose ..)))
  | clearDelay =>
    refine Or.inl ?_
    cases d <;> simp [Life.record, Circuit.held, Circuit.hop]
  | unlink e isOp first hasChan =>
    refine Or.inl ?_
    rw [held_markForClose]
    exact held_setHop_le life.circ d e _ (by simp [Circuit.held])
  | attach => exact Or.inl (by cases d <;> exact le_rfl)
  | fireGone | clearChan | truncate | connect =>
    refine Or.inl (held_setHop_le life.circ d _ _ ?_)
    simp [Circuit.held, Circuit.hop]

end

/-! ## What appends and kills leave alone -/

/-- Channels, flags and streams are the same. -/
structure SameFlags (before after : Circuit) : Prop where
  streams : after.streams = before.streams
  hops : ∀ e, (after.hop e).chan = (before.hop e).chan ∧
    (after.hop e).streamsBlocked = (before.hop e).streamsBlocked

theorem SameFlags.refl : SameFlags circ circ := ⟨rfl, fun _ => ⟨rfl, rfl⟩⟩

theorem SameFlags.trans {first second third : Circuit} (same : SameFlags first second)
    (next : SameFlags second third) : SameFlags first third :=
  ⟨next.streams.trans same.streams, fun e =>
    ⟨(next.hops e).1.trans (same.hops e).1, (next.hops e).2.trans (same.hops e).2⟩⟩

theorem sameFlags_setHop (hop : Hop) (sameChan : hop.chan = (circ.hop d).chan)
    (sameFlag : hop.streamsBlocked = (circ.hop d).streamsBlocked) :
    SameFlags circ (circ.setHop d hop) := by
  refine ⟨Circuit.setHop_streams .., fun e => ?_⟩
  by_cases same : e = d
  · subst same
    rw [Circuit.hop_setHop]
    exact ⟨sameChan, sameFlag⟩
  · rw [Circuit.hop_setHop_of_ne _ _ _ _ same]
    exact ⟨rfl, rfl⟩

theorem sameFlags_schedule (now : ClockReading) (t : TimerPtr) (life : Life) :
    SameFlags life.circ (life.schedule c d now t).circ := by
  unfold Life.schedule
  split
  · exact SameFlags.refl life.circ
  · exact sameFlags_setHop life.circ d { life.circ.hop d with delayTimer := some t } rfl rfl

theorem sameFlags_markForClose : SameFlags life.circ (life.markForClose cfg c).circ := by
  unfold Life.markForClose
  split
  · exact SameFlags.refl life.circ
  · exact ⟨rfl, fun e => by cases e <;> exact ⟨rfl, rfl⟩⟩

/-- Queueing a cell accepts one, and leaves the rest of the circuit alone. -/
structure Queues (d : CellDirection) (life queued : Life) : Prop where
  accepted : ∃ copy, acceptedOf d queued.history = acceptedOf d life.history ++ [copy]
  keeps : Keeps life.circ queued.circ
  isOpen : queued.circ.markedForClose = life.circ.markedForClose
  flags : SameFlags life.circ queued.circ

theorem queues_setHop (circId : UInt32) (copy : PackedCell) (d : CellDirection) (life : Life)
    (hop : Hop) (sameChan : hop.chan = (life.circ.hop d).chan)
    (sameFlag : hop.streamsBlocked = (life.circ.hop d).streamsBlocked) :
    Queues d life (life.setHop [.accepted c d chan circId copy] d hop) :=
  ⟨⟨copy, by simp [Life.setHop, Life.record, acceptedBy]⟩, keeps_setHop life.circ d hop,
    Circuit.setHop_markedForClose .., sameFlags_setHop life.circ d hop sameChan sameFlag⟩

theorem Queues.schedule {d : CellDirection} {life queued : Life} (queues : Queues d life queued)
    (c : CircPtr) (now : ClockReading) (t : TimerPtr) :
    Queues d life (queued.schedule c d now t) := by
  have line := congrArg (fun line => line.entered) (lineOf_schedule c d d now t queued)
  obtain ⟨copy, accepted⟩ := queues.accepted
  refine ⟨⟨copy, line.trans accepted⟩, queues.keeps.schedule c d now t, ?_,
    queues.flags.trans (sameFlags_schedule c d now t queued)⟩
  unfold Life.schedule
  split
  · exact queues.isOpen
  · exact (Circuit.setHop_markedForClose ..).trans queues.isOpen

theorem cellQueueAppendPackedCopy_queues (cell : Cell) (d : CellDirection) (env : AppendEnv)
    (r : Relay) (life : Life) (live : lifeOf r c = some life) :
    ∃ queued, lifeOf (cellQueueAppendPackedCopy cfg c chan cell d env r) c = some queued ∧
      Queues d life queued := by
  have alive : lifeOf { r with brk := r.brk + 1 } c = some life := live
  by_cases delayed : life.circ.delays
  · obtain ⟨ready, readyEq⟩ : ∃ ready : PackedCell, ready =
        { packedCellCopy r.brk cell (cfg.channel chan).wideCircIds env.stamp with
          readyTv := getReadyTimeval cfg life.circ d env.readyNow env.sample } := ⟨_, rfl⟩
    have change := delayOrAppendCell_delayed cfg
      (packedCellCopy r.brk cell (cfg.channel chan).wideCircIds env.stamp) c chan d env _ life _
      ready alive delayed readyEq rfl
    have queues := queues_setHop c chan (life.circ.hop d).circId ready d life
      { life.circ.hop d with
        lastReadyTv := ready.readyTv
        delayQueue := (life.circ.hop d).delayQueue ++ [ready] } rfl rfl
    refine ⟨_, change.own, ?_⟩
    split
    · exact queues.schedule c env.scheduleNow _
    · exact queues
  · have change := delayOrAppendCell_direct cfg
      (packedCellCopy r.brk cell (cfg.channel chan).wideCircIds env.stamp) c chan d env _ life
      alive delayed
    exact ⟨_, change.own, queues_setHop c chan _ _ d life
      { life.circ.hop d with chanCells := (life.circ.hop d).chanCells ++
        [packedCellCopy r.brk cell (cfg.channel chan).wideCircIds env.stamp] } rfl rfl⟩

/-- A killed or_circuit is marked and holds no cell; the cells it held are freed. -/
theorem killCircuit_rewrites (r : Relay) (life : Life) (live : lifeOf r c = some life)
    (isOr : life.circ.magic = .orCircuit) :
    ∃ final, Rewrites r (killCircuit cfg c r) c final ∧ Keeps life.circ final.circ ∧
      SameFlags life.circ final.circ ∧ (∀ d, final.circ.held d = []) ∧
      ∀ d, clearedOf d final.history = clearedOf d life.history ++ life.circ.held d := by
  have marks := circuitMarkForClose_rewrites cfg c r life live
  have isMarked := Life.markForClose_marks cfg c life isOr
  have keeps : Keeps life.circ (life.markForClose cfg c).circ :=
    (⟨rfl, rfl, rfl, id⟩ : Keeps life.circ life.circ).markForClose cfg c
  have outbound := clearChanCells_rewrites c .outbound _ _ marks.own
  have inbound := clearChanCells_rewrites c .inbound _ _ outbound.own
  have delayed := freeDelayData_rewrites c _ _ inbound.own
  have frees : markedCircuitFreeCells c (circuitMarkForClose cfg c r) =
      freeDelayData c (clearChanCells c .inbound (clearChanCells c .outbound
        (circuitMarkForClose cfg c r))) := by
    unfold markedCircuitFreeCells
    rw [Relay.withCircuit_some _ c _ _ (live_of_lifeOf marks.own), if_neg (by simp [isMarked]),
      if_pos (keeps.magic.trans isOr)]
  have change := ((marks.trans outbound).trans inbound).trans delayed
  rw [← frees] at change
  refine ⟨_, change, keeps.trans ⟨rfl, rfl, rfl, id⟩,
    (sameFlags_markForClose cfg c life).trans ⟨rfl, fun e => by cases e <;> exact ⟨rfl, rfl⟩⟩,
    fun d => by cases d <;> rfl, fun d => ?_⟩
  rw [← clearedOf_markForClose cfg c d life, ← held_markForClose cfg c d life]
  cases d <;>
    simp [Life.setHop, Life.record, Circuit.setHop, Circuit.hop, Circuit.held, clearedBy]

theorem killCircuit_frames (r : Relay) : Frames c r (killCircuit cfg c r) := by
  have marks : Frames c r (circuitMarkForClose cfg c r) := by
    refine withCircuit_frames r c _ (fun life live => ?_)
    have change := (circuitMarkForClose_rewrites cfg c r life live).frames
    rwa [circuitMarkForClose, Relay.withCircuit_some r c life.circ _ (live_of_lifeOf live)]
      at change
  refine marks.trans (withCircuit_frames _ c _ (fun life live => ?_))
  split
  · exact Frames.refl c _
  · split
    · exact (clearChanCells_frames _ c .outbound).trans
        ((clearChanCells_frames _ c .inbound).trans (freeDelayData_frames _ c))
    · exact clearChanCells_frames _ c .outbound

end

end RendezMix.Guarantees

/-!
# The per-circuit cell limit

`append_cell_to_circuit_queue` compares the length of the channel queue with the
limit and closes the circuit when it is reached. Cells in the delay queue are not
counted, so a circuit that delays its cells can hold more of them.
-/
namespace RendezMix.Guarantees
open Source Library.Runs

/-- No open or_circuit holds more cells for a direction than the limit. -/
def WithinCap (cfg : Config) (r : Relay) : Prop :=
  ∀ c circ, r.circuits c = some circ → circ.magic = .orCircuit → circ.markedForClose = false →
    ∀ d, (circ.held d).length ≤ cfg.maxQueueSize d

/-- An append to an open or_circuit that already holds the maximum accepts no
cell and leaves the circuit marked for close. -/
def ClosesAtCap (cfg : Config) (x : Transition Relay Op) : Prop :=
  ∀ c chan cell d fromstream env, x.input = .append c chan cell d fromstream env →
    ∀ circ, x.pre.circuits c = some circ → circ.magic = .orCircuit →
      circ.markedForClose = false → cfg.maxQueueSize d ≤ (circ.held d).length →
        acceptedOf d (history c x.post.log) = acceptedOf d (history c x.pre.log) ∧
          ∀ after, x.post.circuits c = some after → after.markedForClose = true

/-- The limit holds after the step, and an append that would exceed it closes
the circuit. -/
def CapSound (cfg : Config) (x : Transition Relay Op) : Prop :=
  WithinCap cfg x.post ∧ ClosesAtCap cfg x

/-- If the step appends to an open or_circuit whose two queues together have
reached the limit, then the channel queue alone has. -/
def CapSeen (cfg : Config) (x : Transition Relay Op) : Prop :=
  ∀ c chan cell d fromstream env, x.input = .append c chan cell d fromstream env →
    ∀ circ, x.pre.circuits c = some circ → circ.magic = .orCircuit →
      circ.markedForClose = false → cfg.maxQueueSize d ≤ (circ.held d).length →
        cfg.maxQueueSize d ≤ (circ.hop d).chanCells.length

/-- `WithinCap`, for one circuit. -/
def Capped (cfg : Config) (life : Life) : Prop :=
  life.circ.magic = .orCircuit → life.circ.markedForClose = false →
    ∀ d, (life.circ.held d).length ≤ cfg.maxQueueSize d

section

variable (cfg : Config) (r after : Relay) (op : Op)

theorem withinCap_iff_capped :
    WithinCap cfg r ↔ ∀ c life, lifeOf r c = some life → Capped cfg life := by
  constructor
  · intro within c life live
    exact within c life.circ (live_of_lifeOf live)
  · intro capped c circ alive
    exact capped c _ (lifeOf_of_circuits alive)

theorem capped_created (circ : Circuit) (created : Created cfg op circ) :
    Capped cfg ⟨[], circ⟩ := by
  intro _ _ d
  obtain ⟨chan, circId, fresh⟩ := created_hop cfg op circ created d
  simp [Circuit.held, fresh, Hop.init]

theorem lifeStep_capped (after : Relay) (seen : CapSeen cfg ⟨r, op, after⟩) (c : CircPtr)
    (life final : Life) (step : LifeStep cfg r op c life final) (capped : Capped cfg life) :
    Capped cfg final := by
  intro isOr isOpen d
  have keeps := lifeStep_keeps cfg r op c life final step
  have wasOr := keeps.magic ▸ isOr
  have before := capped wasOr (keeps.isOpen isOpen) d
  rcases lifeStep_held cfg r op c life final step d with
    fewer | ⟨chan, cell, fromstream, env, isOp, first, wasOpen, room, more⟩
  · exact fewer.trans before
  · have below : (life.circ.held d).length < cfg.maxQueueSize d := by
      by_contra atLimit
      have full := seen c chan cell d fromstream env isOp life.circ (live_of_lifeOf first) wasOr
        wasOpen (not_lt.mp atLimit)
      omega
    omega

theorem step_withinCap (orderly : Orderly r) (within : WithinCap cfg r)
    (taken : Step cfg r op after) (seen : CapSeen cfg ⟨r, op, after⟩) : WithinCap cfg after := by
  rw [withinCap_iff_capped] at within ⊢
  exact step_keeps after taken orderly.fresh (fun _ op circ => capped_created cfg op circ)
    (lifeStep_capped cfg r op after seen) within

/-- An append that finds the channel queue full closes the circuit. -/
theorem append_full (c : CircPtr) (chan : ChanPtr) (cell : Cell) (d : CellDirection)
    (fromstream : UInt16) (env : AppendEnv) (r : Relay) (circ : Circuit)
    (alive : r.circuits c = some circ) (isOr : circ.magic = .orCircuit)
    (isOpen : circ.markedForClose = false)
    (full : cfg.maxQueueSize d ≤ (circ.hop d).chanCells.length) :
    acceptedOf d (history c (appendCellToCircuitQueue cfg c chan cell d fromstream env r).log) =
        acceptedOf d (history c r.log) ∧
      ∀ after, (appendCellToCircuitQueue cfg c chan cell d fromstream env r).circuits c =
        some after → after.markedForClose = true := by
  have closes : appendCellToCircuitQueue cfg c chan cell d fromstream env r =
      circuitMarkForClose cfg c r := by
    unfold appendCellToCircuitQueue
    rw [Relay.withCircuit_some r c circ _ alive, if_neg (by simp [isOpen]), if_pos full]
  have live := lifeOf_of_circuits alive
  have change := circuitMarkForClose_rewrites cfg c r _ live
  obtain ⟨result, past⟩ := (lifeOf_eq_some _ _ _).mp change.own
  rw [closes]
  constructor
  · rw [← past]
    exact congrArg (fun line => line.entered) (lineOf_markForClose cfg c d _)
  · intro after reached
    rw [result, Option.some.injEq] at reached
    rw [← reached]
    exact Life.markForClose_marks cfg c _ isOr

/-- An append that finds room in the channel queue accepts the cell. -/
theorem append_accepts (c : CircPtr) (chan : ChanPtr) (cell : Cell) (d : CellDirection)
    (fromstream : UInt16) (env : AppendEnv) (r : Relay) (circ : Circuit)
    (enabled : Enabled cfg r (.append c chan cell d fromstream env))
    (alive : r.circuits c = some circ) (isOpen : circ.markedForClose = false)
    (room : (circ.hop d).chanCells.length < cfg.maxQueueSize d) :
    acceptedOf d (history c (appendCellToCircuitQueue cfg c chan cell d fromstream env r).log) ≠
      acceptedOf d (history c r.log) := by
  have live := lifeOf_of_circuits alive
  have isSome : (r.circuits c).isSome := by rw [alive]; rfl
  have safely := appendCellToCircuitQueue_safely cfg c chan cell d fromstream env r isSome enabled.2
  obtain ⟨last, reached⟩ := Option.isSome_iff_exists.mp ((safely.alive c).trans isSome)
  have final := lifeOf_of_circuits reached
  obtain ⟨queued, queuedLive, queues⟩ :=
    cellQueueAppendPackedCopy_queues cfg c chan cell d env r _ live
  obtain ⟨copy, accepted⟩ := queues.accepted
  have rest : Advances cfg r (.append c chan cell d fromstream env) _ _ :=
    appendRest_advances c chan cell d (circ.hop d).streamsBlocked fromstream env
      (cellQueueAppendPackedCopy cfg c chan cell d env r) rfl
  rw [← append_eq_appendRest c chan cell d fromstream env circ alive isOpen room] at rest
  obtain ⟨first, firstLive, path⟩ := rest.lives c _ final
  obtain rfl : first = queued := Option.some.inj (firstLive.symm.trans queuedLive)
  obtain ⟨more, grown⟩ := path_history cfg r _ c _ _ path
  intro same
  have longer := congrArg List.length same
  rw [show history c (appendCellToCircuitQueue cfg c chan cell d fromstream env r).log =
    first.history ++ more from grown.symm, acceptedOf_append, accepted] at longer
  simp at longer

section

variable (taken : Step cfg r op after)

include taken

theorem step_closesAtCap (seen : CapSeen cfg ⟨r, op, after⟩) :
    ClosesAtCap cfg ⟨r, op, after⟩ := by
  rintro c chan cell d fromstream env isOp circ alive isOr isOpen reached
  have full := seen c chan cell d fromstream env isOp circ alive isOr isOpen reached
  obtain rfl : op = .append c chan cell d fromstream env := isOp
  obtain ⟨_, rfl⟩ := taken
  exact append_full cfg c chan cell d fromstream env r circ alive isOr isOpen full

theorem capSeen_of_closesAtCap (closes : ClosesAtCap cfg ⟨r, op, after⟩) :
    CapSeen cfg ⟨r, op, after⟩ := by
  rintro c chan cell d fromstream env isOp circ alive isOr isOpen reached
  obtain ⟨same, _⟩ := closes c chan cell d fromstream env isOp circ alive isOr isOpen reached
  obtain rfl : op = .append c chan cell d fromstream env := isOp
  obtain ⟨enabled, rfl⟩ := taken
  by_contra room
  exact append_accepts cfg c chan cell d fromstream env r circ enabled alive isOpen
    (not_le.mp room) same

end

end

/-- The invariant of the runs that stay within the limit. -/
def Limited (cfg : Config) (r : Relay) : Prop := Orderly r ∧ WithinCap cfg r

/-- In every run, after each step the cells that an open or_circuit holds for a
direction are within the limit, and appends at the limit close the circuit,
exactly when every append that finds both queues together at the limit finds the
channel queue alone there. -/
theorem capSound_iff_capSeen (cfg : Config) (ts : List (Transition Relay Op)) (r : Relay)
    (run : RelayRun cfg ts r) : (∀ x ∈ ts, CapSound cfg x) ↔ ∀ x ∈ ts, CapSeen cfg x := by
  have init : Limited cfg Relay.initial := ⟨orderly_initial, fun c circ alive => by cases alive⟩
  refine Run.sound_iff_good run init ?_ ?_
  · rintro before op after ⟨orderly, within⟩ taken
    exact ⟨fun sound => capSeen_of_closesAtCap cfg before after op taken sound.2,
      fun seen => ⟨step_withinCap cfg before after op orderly within taken seen,
        step_closesAtCap cfg before after op taken seen⟩⟩
  · rintro before op after ⟨orderly, within⟩ taken seen
    exact ⟨step_orderly cfg before after op orderly taken,
      step_withinCap cfg before after op orderly within taken seen⟩

theorem capSound_iff_capSeen_delayedCells :
    (∀ x ∈ sampleTrace sampleConfig delayedCells, CapSound sampleConfig x) ↔
      ∀ x ∈ sampleTrace sampleConfig delayedCells, CapSeen sampleConfig x :=
  capSound_iff_capSeen sampleConfig _ _ delayedCells_run

/-- Delayed appends, one more than the limit of 50. -/
def overfullCircuit : List Op :=
  [.createOr 1 7 (some samplePolicy), .connect 0 2 9] ++
    List.replicate 51 (.append 0 2 (sampleCell 9) .outbound 0 (sampleEnv 0 5000))

theorem overfullCircuit_not_withinCap :
    RelayRun sampleConfig (sampleTrace sampleConfig overfullCircuit)
        (sampleRelay sampleConfig overfullCircuit) ∧
      ¬ WithinCap sampleConfig (sampleRelay sampleConfig overfullCircuit) := by
  refine ⟨relayRun_of_admissible sampleConfig overfullCircuit (by decide +kernel), ?_⟩
  intro within
  obtain ⟨circ, alive, isOr, isOpen, many⟩ :
      ∃ circ ∈ (sampleRelay sampleConfig overfullCircuit).circuits 0,
        circ.magic = .orCircuit ∧ circ.markedForClose = false ∧
          50 < (circ.held .outbound).length := by
    decide +kernel
  exact absurd (within 0 circ alive isOr isOpen .outbound) (not_le.mpr many)

end RendezMix.Guarantees
