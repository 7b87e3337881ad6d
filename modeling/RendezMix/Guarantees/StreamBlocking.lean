import RendezMix.Guarantees.HeldCells

/-!
# Blocking and unblocking the edge streams

An append blocks the streams that write towards `p_chan` when the two queues
together reach the high watermark. A flush unblocks them when the channel queue
is down to the low watermark, whatever the delay queue holds.
-/
namespace RendezMix.Guarantees
open Source Library.Runs Relation

/-- The stream that was attached as number `i`: streams are added at the front. -/
def streamAt (circ : Circuit) (i : Nat) : Option Edge := circ.streams.reverse[i]?

/-- Between the two states of an or_circuit, its flag or one of its streams goes
from blocked to unblocked. -/
def Unblocks (before after : Circuit) : Prop :=
  (before.p.streamsBlocked = true ∧ after.p.streamsBlocked = false) ∨
    ∃ i edge edge', streamAt before i = some edge ∧ streamAt after i = some edge' ∧
      edge.edgeBlockedOnCirc = true ∧ edge'.edgeBlockedOnCirc = false

/-- The step is an append or a flush on circuit `c`. -/
def AppendsOrFlushes (c : CircPtr) : Op → Prop
  | .append c' _ _ _ _ _ => c' = c
  | .flush c' _ _ => c' = c
  | _ => False

/-- Streams are unblocked only when the cells held inbound are down to the low
watermark, and after an append or a flush they are blocked if these cells reach
the high watermark. -/
def BlockingSound (cfg : Config) (x : Transition Relay Op) : Prop :=
  ∀ c before after, x.pre.circuits c = some before → x.post.circuits c = some after →
    before.magic = .orCircuit →
      (Unblocks before after → (after.held .inbound).length ≤ cfg.cellQueueLowwatermark) ∧
      (AppendsOrFlushes c x.input →
        cfg.cellQueueHighwatermark ≤ (after.held .inbound).length →
          after.p.streamsBlocked = true)

/-- If the step flushes towards `p_chan` while streams are blocked and leaves the
channel queue at most at the low watermark, then so are both queues together,
and they are below the high watermark. -/
def UnblocksInTime (cfg : Config) (x : Transition Relay Op) : Prop :=
  ∀ c chan, x.input = .flush c chan true → ∀ circ, x.pre.circuits c = some circ →
    circ.magic = .orCircuit → circ.directionOf chan = .inbound → circ.p.streamsBlocked = true →
      ∀ cell rest, circ.p.chanCells = cell :: rest → rest.length ≤ cfg.cellQueueLowwatermark →
        rest.length + circ.p.delayQueue.length ≤ cfg.cellQueueLowwatermark ∧
          rest.length + circ.p.delayQueue.length < cfg.cellQueueHighwatermark

/-! ## What stays blocked -/

/-- Nothing goes from blocked to unblocked. -/
structure StaysBlocked (before after : Circuit) : Prop where
  flag : before.p.streamsBlocked = true → after.p.streamsBlocked = true
  streams : ∀ i edge, streamAt before i = some edge → edge.edgeBlockedOnCirc = true →
    ∃ edge', streamAt after i = some edge' ∧ edge'.edgeBlockedOnCirc = true

variable (cfg : Config) (r : Relay) (op : Op) (after : Relay) (c : CircPtr)
  (before circ : Circuit) (chan : ChanPtr) (life final : Life)

theorem StaysBlocked.refl : StaysBlocked circ circ :=
  ⟨id, fun _ edge has blocked => ⟨edge, has, blocked⟩⟩

theorem StaysBlocked.trans {first second third : Circuit} (stays : StaysBlocked first second)
    (next : StaysBlocked second third) : StaysBlocked first third := by
  refine ⟨fun blocked => next.flag (stays.flag blocked), fun i edge has blocked => ?_⟩
  obtain ⟨middle, has', blocked'⟩ := stays.streams i edge has blocked
  exact next.streams i middle has' blocked'

section

variable (streamId : UInt16)

theorem StaysBlocked.not_unblocks {before after : Circuit} (stays : StaysBlocked before after) :
    ¬ Unblocks before after := by
  rintro (⟨blocked, unblocked⟩ | ⟨i, edge, edge', has, has', blocked, unblocked⟩)
  · rw [stays.flag blocked] at unblocked
    cases unblocked
  · obtain ⟨still, hasStill, stillBlocked⟩ := stays.streams i edge has blocked
    rw [has', Option.some.injEq] at hasStill
    rw [← hasStill, unblocked] at stillBlocked
    cases stillBlocked

theorem staysBlocked_of_same (after : Circuit) (streams : after.streams = before.streams)
    (flag : after.p.streamsBlocked = before.p.streamsBlocked) : StaysBlocked before after := by
  refine ⟨fun blocked => flag.trans blocked, fun i edge has blocked => ⟨edge, ?_, blocked⟩⟩
  rw [streamAt, streams]
  exact has

theorem edge_setBlocked_true (edge : Edge) (blocked : edge.edgeBlockedOnCirc = true) :
    (edge.setBlocked true streamId).edgeBlockedOnCirc = true := by
  unfold Edge.setBlocked
  split
  · exact blocked
  · rfl

theorem staysBlocked_map (after : Circuit) (streamId : UInt16)
    (streams : after.streams = before.streams.map (Edge.setBlocked true streamId))
    (flag : before.p.streamsBlocked = true → after.p.streamsBlocked = true) :
    StaysBlocked before after := by
  refine ⟨flag, fun i edge has blocked => ⟨edge.setBlocked true streamId, ?_,
    edge_setBlocked_true streamId edge blocked⟩⟩
  rw [streamAt, streams, ← List.map_reverse, List.getElem?_map]
  rw [streamAt] at has
  rw [has]
  rfl

theorem staysBlocked_block : StaysBlocked circ (circ.setStreamsBlocked chan true streamId) := by
  unfold Circuit.setStreamsBlocked
  split
  · by_cases isOrigin : circ.magic = .originCircuit
    · exact staysBlocked_map circ _ streamId (if_pos isOrigin) id
    · exact staysBlocked_of_same circ _ (if_neg isOrigin) rfl
  · exact staysBlocked_map circ _ streamId rfl (fun _ => rfl)

/-! ## What a change does to channels, flags and streams -/

/-- The two channels of a circuit lead to different relays. -/
def ChannelsApart (cfg : Config) (circ : Circuit) : Prop :=
  ∀ nChan ∈ circ.n.chan, ∀ pChan ∈ circ.p.chan,
    (cfg.channel pChan).identityDigest ≠ (cfg.channel nChan).identityDigest

inductive FlagStep (cfg : Config) (r : Relay) (op : Op) (c : CircPtr) (life : Life) :
    Circuit → Prop
  | same (after : Circuit) (same : SameFlags life.circ after) : FlagStep cfg r op c life after
  | attach (edge : Edge) :
      FlagStep cfg r op c life { life.circ with streams := edge :: life.circ.streams }
  | block (chan : ChanPtr) (streamId : UInt16) :
      FlagStep cfg r op c life (life.circ.setStreamsBlocked chan true streamId)
  | unblock (chan : ChanPtr) (first : Life) (cell : PackedCell) (rest : CellQueue)
      (isOp : op = .flush c chan true) (live : lifeOf r c = some first)
      (dir : first.circ.directionOf chan = life.circ.directionOf chan)
      (blocked : (life.circ.hop (life.circ.directionOf chan)).streamsBlocked = true)
      (low : (life.circ.hop (life.circ.directionOf chan)).chanCells.length ≤
        cfg.cellQueueLowwatermark)
      (head : (first.circ.hop (life.circ.directionOf chan)).chanCells = cell :: rest)
      (popped : life.circ = first.circ.setHop (life.circ.directionOf chan)
        { first.circ.hop (life.circ.directionOf chan) with chanCells := rest }) :
      FlagStep cfg r op c life (life.circ.setStreamsBlocked chan false 0)
  | rewire (after : Circuit) (streams : after.streams = life.circ.streams)
      (flag : after.p.streamsBlocked = life.circ.p.streamsBlocked)
      (apart : ChannelsApart cfg after) : FlagStep cfg r op c life after

theorem lifeStep_flags (step : LifeStep cfg r op c life final) :
    FlagStep cfg r op c life final.circ := by
  cases step with
  | attach edge => exact .attach edge
  | acceptDelayed queued copy chan cell e fromstream env t isOp first isOpen room delayed copyEq
      queuedEq =>
    have enqueued : SameFlags life.circ queued.circ := by
      rw [queuedEq]
      exact sameFlags_setHop life.circ e
        { life.circ.hop e with
          lastReadyTv := copy.readyTv
          delayQueue := (life.circ.hop e).delayQueue ++ [copy] } rfl rfl
    split
    · exact .same _ (enqueued.trans (sameFlags_schedule c e _ _ queued))
    · exact .same _ enqueued
  | release moved e t next chan now scheduleNow armed isOp fires first isOpen isOr hasChan
      movedEq =>
    have released : SameFlags life.circ moved.circ := by
      rw [movedEq]
      exact sameFlags_setHop life.circ e
        { (life.circ.hop e).releaseReady now.val with delayTimer := none } rfl rfl
    exact .same _ (released.trans (sameFlags_schedule c e _ _ moved))
  | unblock e chan isOp dir blocked low popped =>
    obtain ⟨first, cell, rest, live, sameDir, head, result⟩ := popped
    subst dir
    exact .unblock chan first cell rest isOp live sameDir blocked low head result
  | block e chan cell fromstream env streamId isOp => exact .block chan streamId
  | mark => exact .same _ (sameFlags_markForClose cfg c life)
  | clearDelay => exact .same _ ⟨rfl, fun e => by cases e <;> exact ⟨rfl, rfl⟩⟩
  | truncate chan isOp first isOpen isOr hasChan =>
    exact .rewire _ rfl rfl (fun nChan isN => by cases isN)
  | connect chan circId isOp first isOpen noChan allowed =>
    refine .rewire _ rfl rfl (fun nChan isN pChan isP => ?_)
    rw [← Option.some.inj isN]
    exact allowed pChan isP
  | unlink e isOp first hasChan =>
    have flags := sameFlags_markForClose cfg c
      (life.setHop [] e { life.circ.hop e with chan := none, circId := 0 })
    have chans : ∀ k, ((life.setHop [] e { life.circ.hop e with
        chan := none, circId := 0 }).markForClose cfg c |>.circ.hop k).chan =
        ((life.circ.setHop e { life.circ.hop e with chan := none, circId := 0 }).hop k).chan :=
      fun k => (flags.hops k).1
    refine .rewire _ (flags.streams.trans (Circuit.setHop_streams ..)) ?_ ?_
    · refine (flags.hops .inbound).2.trans ?_
      cases e <;> rfl
    · intro nChan isN pChan isP
      have isN' := (chans .outbound).symm.trans isN
      have isP' := (chans .inbound).symm.trans isP
      cases e with
      | outbound => cases isN'
      | inbound => cases isP'
  | _ => exact .same _ (sameFlags_setHop life.circ _ _ rfl rfl)

theorem setStreamsBlocked_chan (block : Bool) (streamId : UInt16) (d : CellDirection) :
    ((circ.setStreamsBlocked chan block streamId).hop d).chan = (circ.hop d).chan := by
  obtain ⟨flag, hop⟩ := setStreamsBlocked_hop circ chan block streamId d
  rw [hop]

theorem apart_of_chans (after : Circuit) (chans : ∀ d, (after.hop d).chan = (before.hop d).chan)
    (apart : ChannelsApart cfg before) : ChannelsApart cfg after := by
  intro nChan isN pChan isP
  exact apart nChan ((chans .outbound).symm.trans isN) pChan ((chans .inbound).symm.trans isP)

theorem lifeStep_apart (step : LifeStep cfg r op c life final)
    (apart : ChannelsApart cfg life.circ) : ChannelsApart cfg final.circ := by
  have change := lifeStep_flags cfg r op c life final step
  generalize final.circ = after at change
  cases change with
  | same _ same => exact apart_of_chans cfg life.circ after (fun d => (same.hops d).1) apart
  | attach edge => exact apart
  | block chan streamId =>
    exact apart_of_chans cfg life.circ _ (setStreamsBlocked_chan life.circ chan true streamId) apart
  | unblock chan =>
    exact apart_of_chans cfg life.circ _ (setStreamsBlocked_chan life.circ chan false 0) apart
  | rewire _ streams flag apart => exact apart

/-- The circuit as a flush towards `p_chan` unblocks its streams: a cell has been
popped from the channel queue, which is down to the low watermark. -/
structure PoppedLow (cfg : Config) (r : Relay) (op : Op) (c : CircPtr) (life : Life) : Prop where
  blocked : life.circ.p.streamsBlocked = true
  low : life.circ.p.chanCells.length ≤ cfg.cellQueueLowwatermark
  popped : ∃ chan first cell rest, op = .flush c chan true ∧ lifeOf r c = some first ∧
    first.circ.directionOf chan = .inbound ∧ first.circ.p.chanCells = cell :: rest ∧
    life.circ = first.circ.setHop .inbound { first.circ.p with chanCells := rest }

theorem lifeStep_blocked (step : LifeStep cfg r op c life final)
    (isOr : life.circ.magic = .orCircuit) :
    StaysBlocked life.circ final.circ ∨
      (PoppedLow cfg r op c life ∧ final.circ.held .inbound = life.circ.held .inbound) := by
  have change := lifeStep_flags cfg r op c life final step
  generalize final.circ = after at change ⊢
  cases change with
  | same _ same =>
    exact Or.inl (staysBlocked_of_same life.circ after same.streams (same.hops .inbound).2)
  | attach edge =>
    refine Or.inl ⟨id, fun i old has blocked => ⟨old, ?_, blocked⟩⟩
    have bound : i < life.circ.streams.reverse.length := (List.getElem?_eq_some_iff.mp has).1
    rw [streamAt, List.reverse_cons, List.getElem?_append_left bound]
    exact has
  | block chan streamId => exact Or.inl (staysBlocked_block life.circ chan streamId)
  | unblock chan first cell rest isOp live dir blocked low head popped =>
    by_cases outbound : life.circ.n.chan = some chan
    · refine Or.inl (staysBlocked_of_same life.circ _ ?_ ?_)
      · simp [Circuit.setStreamsBlocked, outbound, isOr]
      · simp [Circuit.setStreamsBlocked, outbound]
    · have inbound : life.circ.directionOf chan = .inbound := if_neg outbound
      rw [inbound] at blocked dir low head popped
      exact Or.inr ⟨⟨blocked, low, chan, first, cell, rest, isOp, live, dir, head, popped⟩,
        held_setStreamsBlocked life.circ chan false 0 .inbound⟩
  | rewire _ streams flag apart => exact Or.inl (staysBlocked_of_same life.circ after streams flag)

/-- What the two queues hold when a flush unblocks. -/
theorem PoppedLow.inTime {cfg : Config} {r : Relay} {op : Op} {c : CircPtr} {life : Life}
    (popped : PoppedLow cfg r op c life) (after : Relay)
    (inTime : UnblocksInTime cfg ⟨r, op, after⟩) (isOr : life.circ.magic = .orCircuit) :
    (life.circ.held .inbound).length ≤ cfg.cellQueueLowwatermark ∧
      (life.circ.held .inbound).length < cfg.cellQueueHighwatermark := by
  obtain ⟨blocked, low, chan, first, cell, rest, isOp, live, dir, head, result⟩ := popped
  rw [result] at blocked low isOr ⊢
  simp only [held_setHop_self, List.length_append]
  exact inTime c chan isOp first.circ (live_of_lifeOf live) isOr dir blocked cell rest head low

/-! ## The high watermark -/

/-- Cells up to the high watermark block the streams of an or_circuit. -/
def BlocksHigh (cfg : Config) (circ : Circuit) : Prop :=
  circ.magic = .orCircuit → cfg.cellQueueHighwatermark ≤ (circ.held .inbound).length →
    circ.p.streamsBlocked = true

/-- The invariant of the runs that unblock in time. -/
structure Hysteresis (cfg : Config) (r : Relay) : Prop where
  orderly : Orderly r
  apart : ∀ c life, lifeOf r c = some life → ChannelsApart cfg life.circ
  blocks : ∀ c life, lifeOf r c = some life → BlocksHigh cfg life.circ

theorem blocksHigh_empty (empty : circ.held .inbound = []) : BlocksHigh cfg circ := by
  intro _ reached
  rw [empty] at reached
  have positive := cfg.highwatermark_range.1
  have none : cfg.cellQueueHighwatermark ≤ 0 := reached
  omega

end

section

variable (created : Created cfg op circ)

include created

theorem blocksHigh_created : BlocksHigh cfg circ := by
  obtain ⟨chan, circId, fresh⟩ := created_hop cfg op circ created .inbound
  exact blocksHigh_empty cfg circ (by rw [Circuit.held, fresh]; rfl)

theorem apart_created : ChannelsApart cfg circ := by
  intro nChan isN
  cases created with
  | orCircuit => cases isN
  | originCircuit => cases isN

end

section

variable (inTime : UnblocksInTime cfg ⟨r, op, after⟩)

include inTime

theorem lifeStep_blocksHigh (c : CircPtr) (life final : Life)
    (step : LifeStep cfg r op c life final)
    (quiet : ∀ chan cell fromstream env, op ≠ .append c chan cell .inbound fromstream env)
    (blocks : BlocksHigh cfg life.circ) : BlocksHigh cfg final.circ := by
  intro isOr reached
  have wasOr := (lifeStep_keeps cfg r op c life final step).magic ▸ isOr
  have fewer : (final.circ.held .inbound).length ≤ (life.circ.held .inbound).length := by
    rcases lifeStep_held cfg r op c life final step .inbound with
      fewer | ⟨chan, cell, fromstream, env, isOp, _⟩
    · exact fewer
    · exact absurd isOp (quiet chan cell fromstream env)
  rcases lifeStep_blocked cfg r op c life final step wasOr with stays | ⟨popped, held⟩
  · exact stays.flag (blocks wasOr (reached.trans fewer))
  · have below := (popped.inTime after inTime wasOr).2
    rw [held] at reached
    omega

/-- What a whole step unblocks: nothing, or the held cells are down to the low
watermark. -/
theorem path_blocked (c : CircPtr) (life final : Life)
    (path : ReflTransGen (LifeStep cfg r op c) life final) (isOr : life.circ.magic = .orCircuit) :
    final.circ.magic = .orCircuit ∧ (StaysBlocked life.circ final.circ ∨
      ((∃ chan, op = .flush c chan true) ∧
        (final.circ.held .inbound).length ≤ cfg.cellQueueLowwatermark)) := by
  induction path with
  | refl => exact ⟨isOr, Or.inl (StaysBlocked.refl life.circ)⟩
  | @tail middle last _ step reached =>
    obtain ⟨stillOr, soFar⟩ := reached
    refine ⟨(lifeStep_keeps cfg r op c _ _ step).magic.trans stillOr, ?_⟩
    rcases soFar with stays | ⟨⟨chan, isOp⟩, low⟩
    · rcases lifeStep_blocked cfg r op c _ _ step stillOr with still | ⟨popped, held⟩
      · exact Or.inl (stays.trans still)
      · obtain ⟨chan, _, _, _, isOp, _⟩ := popped.popped
        refine Or.inr ⟨⟨chan, isOp⟩, ?_⟩
        rw [held]
        exact (popped.inTime after inTime stillOr).1
    · refine Or.inr ⟨⟨chan, isOp⟩, ?_⟩
      rcases lifeStep_held cfg r op c _ _ step .inbound with
        fewer | ⟨chan', cell, fromstream, env, isAppend, _⟩
      · exact fewer.trans low
      · rw [isOp] at isAppend
        cases isAppend

end

/-! ## Appends block at the high watermark -/

/-- The memory handler leaves the flags of a circuit alone, and a circuit that it
marks holds no cells. -/
theorem cellQueuesCheckSize_flags (oomKills : Option (List CircPtr)) (r : Relay) (life : Life)
    (live : lifeOf r c = some life) (isOr : life.circ.magic = .orCircuit)
    (isOpen : life.circ.markedForClose = false) :
    ∃ final, lifeOf (cellQueuesCheckSize cfg oomKills r) c = some final ∧
      Keeps life.circ final.circ ∧ SameFlags life.circ final.circ ∧
      (final.circ.markedForClose = true → final.circ.held .inbound = []) := by
  cases oomKills with
  | none =>
    refine ⟨life, live, ⟨rfl, rfl, rfl, id⟩, SameFlags.refl life.circ, fun marked => ?_⟩
    rw [isOpen] at marked
    cases marked
  | some kills =>
    have open_or_empty : life.circ.markedForClose = true → life.circ.held .inbound = [] := by
      intro marked
      rw [isOpen] at marked
      cases marked
    clear isOpen
    induction kills generalizing r life with
    | nil =>
      exact ⟨life, live, ⟨rfl, rfl, rfl, id⟩, SameFlags.refl life.circ, open_or_empty⟩
    | cons k rest ih =>
      by_cases own : k = c
      · subst own
        obtain ⟨killed, change, keeps, flags, empty, _⟩ :=
          killCircuit_rewrites cfg k r life live isOr
        obtain ⟨final, result, keeps', flags', marked⟩ := ih _ killed change.own
          (keeps.magic.trans isOr) (fun _ => empty .inbound)
        exact ⟨final, result, keeps.trans keeps', flags.trans flags', marked⟩
      · have other : SameAt c r (killCircuit cfg k r) := by
          have frames : Frames k r (killCircuit cfg k r) := killCircuit_frames cfg k r
          exact frames.others c (Ne.symm own)
        exact ih _ life (other.lifeOf_eq.trans live) isOr open_or_empty

theorem blocksHigh_of_same (after : Circuit) (magic : after.magic = before.magic)
    (held : after.held .inbound = before.held .inbound)
    (flag : after.p.streamsBlocked = before.p.streamsBlocked) (blocks : BlocksHigh cfg before) :
    BlocksHigh cfg after := by
  intro isOr reached
  rw [held] at reached
  exact flag.trans (blocks (magic ▸ isOr) reached)

theorem setStreamsBlocked_inbound (block : Bool) (streamId : UInt16)
    (other : circ.n.chan ≠ some chan) :
    (circ.setStreamsBlocked chan block streamId).p.streamsBlocked = block := by
  simp [Circuit.setStreamsBlocked, other]

/-- The end of an append blocks the streams if the held cells have reached the
high watermark. -/
theorem blockStreams_blocksHigh (fromstream : UInt16) (r : Relay) (life final : Life)
    (live : lifeOf r c = some life) (isOr : life.circ.magic = .orCircuit)
    (other : life.circ.n.chan ≠ some chan)
    (result : lifeOf (blockStreams cfg c chan .inbound life.circ.p.streamsBlocked fromstream r) c =
      some final) : BlocksHigh cfg final.circ := by
  have blocked : ∀ streamId, BlocksHigh cfg (life.circ.setStreamsBlocked chan true streamId) :=
    fun streamId _ _ => setStreamsBlocked_inbound life.circ chan true streamId other
  have setTo : ∀ streamId, lifeOf (setStreamsBlockedOnCirc c chan true streamId r) c = some final →
      BlocksHigh cfg final.circ := by
    intro streamId reached
    rw [(setStreamsBlockedOnCirc_rewrites c chan true streamId r life live).own,
      Option.some.injEq] at reached
    rw [← reached]
    exact blocked streamId
  unfold blockStreams at result
  rw [Relay.withCircuit_some r c life.circ _ (live_of_lifeOf live)] at result
  rw [if_pos isOr] at result
  dsimp only at result
  split at result
  · exact setTo 0 result
  · next notHigh =>
    split at result
    · exact setTo fromstream result
    · rw [live, Option.some.injEq] at result
      subst result
      intro _ reached
      by_contra unblocked
      refine notHigh ⟨by simpa using unblocked, ?_⟩
      rw [← List.length_append]
      exact reached

theorem append_blocksHigh (cell : Cell) (fromstream : UInt16) (env : AppendEnv) (r : Relay)
    (hysteresis : Hysteresis cfg r)
    (enabled : Enabled cfg r (.append c chan cell .inbound fromstream env)) (final : Life)
    (result : lifeOf (appendCellToCircuitQueue cfg c chan cell .inbound fromstream env r) c =
      some final) : BlocksHigh cfg final.circ := by
  obtain ⟨⟨circ, alive, hasChan, _, wasOr, _⟩, _⟩ := enabled
  have live := lifeOf_of_circuits alive
  have isOr := wasOr rfl
  have before := hysteresis.blocks c _ live
  have other : circ.n.chan ≠ some chan := by
    intro same
    exact hysteresis.apart c _ live chan same chan hasChan rfl
  cases marked : circ.markedForClose with
  | true =>
    rw [appendCellToCircuitQueue, Relay.withCircuit_some r c circ _ alive, if_pos marked, live,
      Option.some.injEq] at result
    rw [← result]
    exact before
  | false =>
    by_cases room : (circ.hop .inbound).chanCells.length < cfg.maxQueueSize .inbound
    · obtain ⟨queued, queuedLive, queues⟩ :=
        cellQueueAppendPackedCopy_queues cfg c chan cell .inbound env r _ live
      obtain ⟨closed, closedLive, keeps, flags, emptied⟩ := cellQueuesCheckSize_flags cfg c
        env.oomKills _ queued queuedLive (queues.keeps.magic.trans isOr)
        (queues.isOpen.trans marked)
      have same := queues.flags.trans flags
      rw [append_eq_appendRest c chan cell .inbound fromstream env circ alive marked room,
        appendRest] at result
      rw [Relay.withCircuit_some _ c closed.circ _ (live_of_lifeOf closedLive)] at result
      split at result
      · next closes =>
        rw [closedLive, Option.some.injEq] at result
        rw [← result]
        exact blocksHigh_empty cfg closed.circ (emptied closes.2)
      · have flag : (circ.hop .inbound).streamsBlocked = closed.circ.p.streamsBlocked :=
          (same.hops .inbound).2.symm
        rw [flag] at result
        exact blockStreams_blocksHigh cfg c chan fromstream _ closed final closedLive
          ((queues.keeps.trans keeps).magic.trans isOr) (fun has => other ((same.hops .outbound).1.symm.trans has)) result
    · rw [appendCellToCircuitQueue, Relay.withCircuit_some r c circ _ alive,
        if_neg (by simp [marked]), if_pos (by omega),
        (circuitMarkForClose_rewrites cfg c r _ live).own, Option.some.injEq] at result
      rw [← result]
      refine blocksHigh_of_same cfg circ _ ?_ (held_markForClose cfg c .inbound _)
        ((sameFlags_markForClose cfg c _).hops .inbound).2 before
      exact ((⟨rfl, rfl, rfl, id⟩ : Keeps circ circ).markForClose cfg c).magic

/-! ## Every run -/

theorem step_hysteresis (op : Op) (hysteresis : Hysteresis cfg r) (taken : Step cfg r op after)
    (inTime : UnblocksInTime cfg ⟨r, op, after⟩) : Hysteresis cfg after := by
  have fresh := hysteresis.orderly.fresh
  refine ⟨step_orderly cfg r after op hysteresis.orderly taken, ?_, ?_⟩
  · exact step_keeps after taken fresh (fun _ op circ => apart_created cfg op circ)
      (lifeStep_apart cfg r op) hysteresis.apart
  · by_cases appends : ∃ c chan cell fromstream env, op = .append c chan cell .inbound fromstream env
    · obtain ⟨c, chan, cell, fromstream, env, rfl⟩ := appends
      have others : ∀ c' life, lifeOf after c' = some life → c' ≠ c → BlocksHigh cfg life.circ := by
        refine step_keeps after taken fresh (fun _ op circ created _ =>
          blocksHigh_created cfg op circ created) ?_ (fun c' life live _ =>
          hysteresis.blocks c' life live)
        intro c' life final step blocks ne
        refine lifeStep_blocksHigh cfg r _ after inTime c' life final step ?_ (blocks ne)
        intro chan' cell' fromstream' env' isOp
        exact ne (Op.append.inj isOp).1.symm
      intro c' life live
      by_cases own : c' = c
      · subst own
        obtain ⟨enabled, rfl⟩ := taken
        exact append_blocksHigh cfg c' chan cell fromstream env r hysteresis enabled life live
      · exact others c' life live own
    · refine step_keeps after taken fresh (fun _ op circ => blocksHigh_created cfg op circ)
        ?_ hysteresis.blocks
      intro c life final step blocks
      exact lifeStep_blocksHigh cfg r op after inTime c life final step
        (fun chan cell fromstream env isOp => appends ⟨c, chan, cell, fromstream, env, isOp⟩) blocks

theorem blockingSound_of_unblocksInTime (op : Op) (hysteresis : Hysteresis cfg r)
    (taken : Step cfg r op after) (inTime : UnblocksInTime cfg ⟨r, op, after⟩) :
    BlockingSound cfg ⟨r, op, after⟩ := by
  intro c before last alive reached isOr
  have path := step_path after taken hysteresis.orderly.fresh c _ _ (lifeOf_of_circuits alive)
    (lifeOf_of_circuits reached)
  obtain ⟨stillOr, soFar⟩ := path_blocked cfg r op after inTime c _ _ path isOr
  constructor
  · intro unblocks
    rcases soFar with stays | ⟨_, low⟩
    · exact absurd unblocks stays.not_unblocks
    · exact low
  · intro _ high
    exact (step_hysteresis cfg r after op hysteresis taken inTime).blocks c _
      (lifeOf_of_circuits reached) stillOr high

/-- A flush that finds the channel queue low unblocks the streams. -/
theorem flush_unblocks (r : Relay) (circ : Circuit) (cell : PackedCell) (rest : CellQueue)
    (alive : r.circuits c = some circ) (dir : circ.directionOf chan = .inbound)
    (blocked : circ.p.streamsBlocked = true) (head : circ.p.chanCells = cell :: rest)
    (low : rest.length ≤ cfg.cellQueueLowwatermark) :
    (channelFlushCircuit cfg c chan true r).circuits c =
      some ((circ.setHop .inbound { circ.p with chanCells := rest }).setStreamsBlocked
        chan false 0) := by
  have headOf : (circ.hop .inbound).chanCells = cell :: rest := head
  unfold channelFlushCircuit
  rw [Relay.withCircuit_some r c circ _ alive]
  simp only [dir]
  split
  · next empty =>
    rw [headOf] at empty
    cases empty
  · next first others sameHead =>
    rw [headOf] at sameHead
    obtain ⟨rfl, rfl⟩ := List.cons.inj sameHead
    rw [if_neg (by simp), if_pos ⟨blocked, low⟩, setStreamsBlockedOnCirc,
      Relay.withCircuit_some _ c (circ.setHop .inbound { circ.p with chanCells := rest }) _
        (Function.update_self c (some (circ.setHop .inbound { circ.p with chanCells := rest }))
          r.circuits)]
    exact Function.update_self c _ _

theorem unblocksInTime_of_blockingSound (op : Op) (taken : Step cfg r op after)
    (sound : BlockingSound cfg ⟨r, op, after⟩) : UnblocksInTime cfg ⟨r, op, after⟩ := by
  rintro c chan isOp circ alive isOr dir blocked cell rest head low
  obtain rfl : op = .flush c chan true := isOp
  obtain ⟨_, rfl⟩ := taken
  have reached := flush_unblocks cfg c chan r circ cell rest alive dir blocked head low
  obtain ⟨unblocks, blocks⟩ := sound c circ _ alive reached isOr
  have other : circ.n.chan ≠ some chan := by
    intro same
    rw [Circuit.directionOf, if_pos same] at dir
    cases dir
  have unblocked := setStreamsBlocked_inbound
    (circ.setHop .inbound { circ.p with chanCells := rest }) chan false 0 other
  rw [held_setStreamsBlocked, held_setHop_self, List.length_append] at unblocks blocks
  refine ⟨unblocks (Or.inl ⟨blocked, unblocked⟩), ?_⟩
  by_contra high
  have still := blocks rfl (not_lt.mp high)
  rw [unblocked] at still
  cases still

/-- In every run, each step blocks and unblocks the streams of an or_circuit by
the cells it holds in both queues exactly when each flush towards `p_chan` that
unblocks them finds both queues together, and not only the channel queue, down
to the low watermark and below the high one. -/
theorem blockingSound_iff_unblocksInTime (cfg : Config) (ts : List (Transition Relay Op))
    (r : Relay) (run : RelayRun cfg ts r) :
    (∀ x ∈ ts, BlockingSound cfg x) ↔ ∀ x ∈ ts, UnblocksInTime cfg x := by
  have init : Hysteresis cfg Relay.initial :=
    ⟨orderly_initial, fun c life live => by simp [lifeOf, Relay.initial] at live,
      fun c life live => by simp [lifeOf, Relay.initial] at live⟩
  refine Run.sound_iff_good run init ?_ ?_
  · intro before op after hysteresis taken
    exact ⟨unblocksInTime_of_blockingSound cfg before after op taken,
      blockingSound_of_unblocksInTime cfg before after op hysteresis taken⟩
  · intro before op after hysteresis taken inTime
    exact step_hysteresis cfg before after op hysteresis taken inTime

theorem blockingSound_iff_unblocksInTime_delayedCells :
    (∀ x ∈ sampleTrace sampleConfig delayedCells, BlockingSound sampleConfig x) ↔
      ∀ x ∈ sampleTrace sampleConfig delayedCells, UnblocksInTime sampleConfig x :=
  blockingSound_iff_unblocksInTime sampleConfig _ _ delayedCells_run

/-- A relay whose consensus sets low watermarks. -/
def lowWatermarks : Config :=
  { sampleConfig with
    cellQueueHighwatermark := 3
    cellQueueLowwatermark := 1
    highwatermark_range := by decide
    lowwatermark_range := by decide }

/-- Three delayed cells block the stream; one of them is released. -/
def blockedStream : List Op :=
  [.createOr 1 7 (some samplePolicy), .attachStream 0 ⟨50, 1, false, true, true⟩,
    .append 0 1 (sampleCell 7) .inbound 1 (sampleEnv 0 5000),
    .append 0 1 (sampleCell 7) .inbound 1 (sampleEnv 0 5000),
    .append 0 1 (sampleCell 7) .inbound 1 (sampleEnv 0 5000),
    .fire 3 (clockAt 5000) (clockAt 5000)]

/-- The flush of the released cell unblocks the stream, with two cells held. -/
theorem blockedStream_not_blockingSound :
    RelayRun lowWatermarks (sampleTrace lowWatermarks (blockedStream ++ [.flush 0 1 true]))
        (sampleRelay lowWatermarks (blockedStream ++ [.flush 0 1 true])) ∧
      ¬ ∀ x ∈ sampleTrace lowWatermarks (blockedStream ++ [.flush 0 1 true]),
        BlockingSound lowWatermarks x := by
  refine ⟨relayRun_of_admissible lowWatermarks _ (by decide +kernel), ?_⟩
  intro sound
  have flush : (⟨sampleRelay lowWatermarks blockedStream, .flush 0 1 true,
      sampleRelay lowWatermarks (blockedStream ++ [.flush 0 1 true])⟩ : Transition Relay Op) ∈
        sampleTrace lowWatermarks (blockedStream ++ [.flush 0 1 true]) :=
    List.mem_of_getElem? (i := 6) rfl
  obtain ⟨before, alive, after, reached, isOr, blocked, unblocked, many⟩ :
      ∃ before ∈ (sampleRelay lowWatermarks blockedStream).circuits 0,
        ∃ after ∈ (sampleRelay lowWatermarks (blockedStream ++ [.flush 0 1 true])).circuits 0,
          before.magic = .orCircuit ∧ before.p.streamsBlocked = true ∧
            after.p.streamsBlocked = false ∧ 1 < (after.held .inbound).length := by
    decide +kernel
  have low := (sound _ flush 0 before after alive reached isOr).1 (Or.inl ⟨blocked, unblocked⟩)
  exact absurd low (not_le.mpr many)

end RendezMix.Guarantees
