import RendezMix.Guarantees.SchedulerTracking

/-!
# The loops of the schedulers

Each pass through the loop of a scheduler either flushes a cell, or leaves fewer
channels that may still be popped, or shortens the queue. So every scheduler run
ends, and what was held is put back into the queue at its end.
-/
namespace RendezMix.Guarantees.SchedulerLoops

open Library.WhileLoops Source.SmartlistPqueue Source.Scheduler PqueueOrder SchedulerTracking

variable {Chan : Type} [DecidableEq Chan]

/-! ## Measures -/

omit [DecidableEq Chan] in
theorem cells_congr {s : Finset Chan} {w w' : Sched Chan}
    (same : ∀ chan, (w'.channel chan).numCells = (w.channel chan).numCells) :
    cells s w' = cells s w :=
  Finset.sum_congr rfl fun chan _ => same chan

theorem Flushed.cells {s : Finset Chan} {chan : Chan} {n : Nat} {w w' : Sched Chan}
    (flushed : Flushed s chan n w w') (inside : chan ∈ s) : cells s w' + n ≤ cells s w := by
  have fewer := flushed.fewer
  have rest : ∑ c ∈ s.erase chan, (w'.channel c).numCells
      = ∑ c ∈ s.erase chan, (w.channel c).numCells :=
    Finset.sum_congr rfl fun c mem => flushed.others c (Finset.ne_of_mem_erase mem)
  rw [SchedulerTracking.cells, SchedulerTracking.cells, ← Finset.add_sum_erase s _ inside,
    ← Finset.add_sum_erase s _ inside, rest]
  omega

/-- Fewer cells, or fewer channels that may still be popped, or a shorter queue. -/
def Shorter (s : Finset Chan) (w' w : Sched Chan) : Prop :=
  cells s w' < cells s w ∨ cells s w' ≤ cells s w ∧ (waiting s w' < waiting s w
    ∨ waiting s w' ≤ waiting s w ∧ w'.channelsPending.list.length < w.channelsPending.list.length)

omit [DecidableEq Chan] in
theorem shorter_wf (s : Finset Chan) : WellFounded (Shorter s) := by
  have wf := InvImage.wf (fun w : Sched Chan =>
    toLex (cells s w, toLex (waiting s w, w.channelsPending.list.length)))
    (wellFounded_lt (α := ℕ ×ₗ (ℕ ×ₗ ℕ)))
  apply Subrelation.wf _ wf
  intro w' w shorter
  simp only [InvImage, Prod.Lex.lt_iff, ofLex_toLex]
  rcases shorter with less | ⟨le, less | ⟨le', less⟩⟩
  · exact .inl less
  · rcases Nat.lt_or_eq_of_le le with less' | same
    · exact .inl less'
    · exact .inr ⟨same, .inl less⟩
  · rcases Nat.lt_or_eq_of_le le with less' | same
    · exact .inl less'
    · rcases Nat.lt_or_eq_of_le le' with less'' | same'
      · exact .inr ⟨same, .inl less''⟩
      · exact .inr ⟨same, .inr ⟨same', less⟩⟩

theorem setState_numCells (w : Sched Chan) (chan : Chan) (newState : SchedState) (other : Chan) :
    ((schedulerSetChannelState w chan newState).channel other).numCells
      = (w.channel other).numCells := by
  rw [schedulerSetChannelState]
  by_cases same : other = chan
  · subst same
    rw [setChannel_same]
  · rw [setChannel_other w _ same]

theorem setWaitingToWrite_waiting (s : Finset Chan) (w : Sched Chan) (chan : Chan) :
    waiting s (schedulerSetChannelState w chan .waitingToWrite) ≤ waiting s w + 1 := by
  have more : toWrite s (schedulerSetChannelState w chan .waitingToWrite)
      ⊆ insert chan (toWrite s w) := by
    intro other mem
    rw [Finset.mem_insert]
    by_cases same : other = chan
    · exact .inl same
    · rw [toWrite, Finset.mem_filter, schedulerSetChannelState, setChannel_other w _ same] at mem
      right
      rw [toWrite, Finset.mem_filter]
      exact mem
  have card := (Finset.card_le_card more).trans (Finset.card_insert_le _ _)
  rw [waiting, waiting, schedulerSetChannelState_channelsPending]
  omega

theorem within_setState {s : Finset Chan} {w : Sched Chan} (within : Within s w) {chan : Chan}
    (inside : chan ∈ s) (newState : SchedState) :
    Within s (schedulerSetChannelState w chan newState) :=
  within.change _ _ fun outside => absurd inside outside

/-! ## Popping -/

variable [Inhabited Chan] {s : Finset Chan}

section

variable (compare : Chan → Chan → Int) (turn : KistTurn Chan) {held : List Chan}
  (run : KistRun Chan) {chan : Chan} {w : Sched Chan} {k : KistState Chan}

theorem pop_tracks (tracks : Tracks held w) (within : Within s w)
    (some_ : w.channelsPending.list ≠ []) :
    ∃ chan w', smartlistPqueuePop compare w.channelsPending = some (chan, w'.channelsPending)
      ∧ { w with channelsPending := w'.channelsPending } = w' ∧ Tracks (chan :: held) w'
      ∧ chan ∉ held ∧ chan ∈ s ∧ Within s w' ∧ cells s w' = cells s w
      ∧ waiting s w' + 1 = waiting s w
      ∧ w'.channelsPending.list.length < w.channelsPending.list.length := by
  obtain ⟨chan, cp, popped, mem, out⟩ := tracks.placed.pop compare some_
  have fits := tracks.fits chan
  have pending := fits.queued mem
  have absent : chan ∉ cp.list := fun inside => ((out.mem_iff chan).mp inside).2 rfl
  have length := out.length
  refine ⟨chan, { w with channelsPending := cp }, popped, rfl, ?_, fun isHeld =>
    fits.apart isHeld mem, ?_, within, rfl, ?_, by dsimp only; omega⟩
  · have changed := @Tracks.change _ _ _ held (chan :: held) w tracks chan (w.channel chan) cp
      w.socketTable out.placed
    rw [Function.update_eq_self] at changed
    apply changed
    · constructor
      · exact fun _ => pending
      · exact fun _ => .inr List.mem_cons_self
      · exact fun _ => absent
      · intro _ same
        rw [pending] at same
        cases same
      · exact fits.notLost
    · intro other differ
      rw [out.mem_iff]
      exact ⟨And.left, fun inside => ⟨inside, differ⟩⟩
    · intro other differ
      rw [List.mem_cons]
      exact ⟨fun isHeld => isHeld.resolve_left differ, .inr⟩
  · by_contra outside
    exact (within chan outside).2.2 pending
  · rw [waiting, waiting, length]
    rfl

/-! ## KIST -/

/-- The invariant of the main loop. -/
structure KistInv (s : Finset Chan) (k : KistState Chan) : Prop where
  tracks : Tracks k.toReadd k.sched
  nodup : k.toReadd.Nodup
  within : Within s k.sched

theorem leavePrevChan_tracks (chan : Chan) (tracks : Tracks held k.sched)
    (within : Within s k.sched) :
    ∃ k', leavePrevChan turn chan k = some k' ∧ k'.toReadd = k.toReadd ∧ Tracks held k'.sched
      ∧ ∀ served, Flushed s served 0 k.sched k'.sched := by
  rw [leavePrevChan]
  dsimp only
  split
  · exact ⟨_, rfl, rfl, tracks, fun served => Flushed.refl served within⟩
  · split
    · obtain ⟨w', done, tracks', flushed⟩ :=
        asides_tracks turn.write.compare turn.write.asides tracks within
      rw [channelWriteToKernel, done]
      exact ⟨_, rfl, rfl, tracks', flushed⟩
    · exact ⟨_, rfl, rfl, tracks, fun served => Flushed.refl served within⟩

omit [DecidableEq Chan] [Inhabited Chan] in
theorem hold_cons (other : Chan) (differ : other ≠ chan) : other ∈ held ↔ other ∈ chan :: held := by
  rw [List.mem_cons]
  exact ⟨.inr, fun mem => mem.resolve_left differ⟩

theorem letGo_tracks {newState : SchedState} (tracks : Tracks (chan :: held) w)
    (notHeld : chan ∉ held) (notPending : newState ≠ .pending)
    (notLost : (w.channel chan).isOpen → 0 < (w.channel chan).numCells →
      newState = .waitingToWrite) : Tracks held (schedulerSetChannelState w chan newState) := by
  apply setState_tracks tracks _ notPending _ notLost hold_cons
  · exact (tracks.fits chan).apart List.mem_cons_self
  · exact fun mem => absurd mem notHeld

/-- A channel that cannot write is not put back into the queue. -/
theorem kistDecide_inv (tracks : Tracks (chan :: k.toReadd) k.sched)
    (nodup : (chan :: k.toReadd).Nodup) (within : Within s k.sched) (inside : chan ∈ s) :
    KistInv s (kistDecide compare chan k)
      ∧ cells s (kistDecide compare chan k).sched = cells s k.sched
      ∧ (socketCanWrite k.sched chan = false →
        waiting s (kistDecide compare chan k).sched ≤ waiting s k.sched) := by
  obtain ⟨notHeld, nodup'⟩ := List.nodup_cons.mp nodup
  have absent := (tracks.fits chan).apart List.mem_cons_self
  have noCells : ¬ decide ((k.sched.channel chan).numCells > 0) = true →
      KistInv s { k with sched := schedulerSetChannelState k.sched chan .waitingForCells }
      ∧ cells s (schedulerSetChannelState k.sched chan .waitingForCells) = cells s k.sched
      ∧ (socketCanWrite k.sched chan = false →
        waiting s (schedulerSetChannelState k.sched chan .waitingForCells)
          ≤ waiting s k.sched) := by
    intro empty
    rw [decide_eq_true_eq] at empty
    refine ⟨⟨?_, nodup', within_setState within inside _⟩, ?_, fun _ => ?_⟩
    · apply letGo_tracks tracks notHeld (by simp)
      exact fun _ some_ => absurd some_ empty
    · exact cells_congr (setState_numCells k.sched chan .waitingForCells)
    · exact (setState_flushed within chan (by simp) (by simp) chan).waits
  rw [kistDecide]
  split
  · next neither => exact noCells neither.1
  · split
    · next empty => exact noCells empty
    · split
      · refine ⟨⟨?_, ?_, within⟩, rfl, fun _ => Nat.le_refl _⟩
        · apply tracks.held_congr
          intro other
          rw [List.mem_append, List.mem_singleton, List.mem_cons, or_comm]
        · exact (List.perm_append_singleton chan k.toReadd).nodup_iff.mpr nodup
      · next canWrite =>
        rw [addPendingChecked_eq compare tracks absent]
        refine ⟨⟨?_, nodup', ?_⟩, ?_, ?_⟩
        · exact addPending_tracks compare tracks absent notHeld hold_cons
        · exact within.change _ _ fun outside => absurd inside outside
        · exact cells_congr (setState_numCells k.sched chan .pending)
        · intro cannot
          rw [cannot] at canWrite
          exact absurd Bool.false_ne_true canWrite

omit [Inhabited Chan] in
theorem updateSocketWritten_same (w : Sched Chan) (chan : Chan) (bytes : UInt64) :
    (updateSocketWritten w chan bytes).channelsPending = w.channelsPending
      ∧ (updateSocketWritten w chan bytes).channel = w.channel := by
  rw [updateSocketWritten]
  split <;> exact ⟨rfl, rfl⟩

/-- Serving a held channel flushes a cell, or lets no more channels be popped. -/
theorem kistServe_inv (tracks : Tracks (chan :: k.toReadd) k.sched)
    (nodup : (chan :: k.toReadd).Nodup) (within : Within s k.sched) (inside : chan ∈ s) :
    ∃ k', kistServe turn chan k = some k' ∧ KistInv s k' ∧ (cells s k'.sched < cells s k.sched
      ∨ cells s k'.sched ≤ cells s k.sched ∧ waiting s k'.sched ≤ waiting s k.sched) := by
  obtain ⟨notHeld, nodup'⟩ := List.nodup_cons.mp nodup
  rw [kistServe]
  split
  · next canWrite =>
    obtain ⟨n, w, done, tracks', flushed, drained⟩ :=
      channelFlushSomeCells_tracks chan turn.passes tracks within Nat.one_pos
    have fewer := Flushed.cells flushed inside
    rw [done]
    dsimp only
    split
    · next closed =>
      refine ⟨_, rfl, ⟨?_, nodup', within_setState flushed.within inside _⟩, .inr ⟨?_, ?_⟩⟩
      · apply letGo_tracks tracks' notHeld (by simp)
        exact fun isOpen => absurd isOpen closed
      · rw [cells_congr (setState_numCells w chan .idle)]
        omega
      · exact (setState_flushed flushed.within chan (by simp) (by simp) chan).waits.trans
          flushed.waits
    · split
      · next some_ =>
        obtain ⟨queue, channel⟩ :=
          updateSocketWritten_same w chan (UInt64.ofNat n * cellWireSize)
        generalize updateSocketWritten w chan (UInt64.ofNat n * cellWireSize) = w' at queue channel
        have within' : Within s w' := by
          rw [Within, channel]
          exact flushed.within
        obtain ⟨inv, same, -⟩ := kistDecide_inv (k := { k with sched := w' }) turn.compareAfter
          (tracks'.of_same queue channel) nodup within' inside
        refine ⟨_, rfl, inv, .inl ?_⟩
        have same' : cells s w' = cells s w := cells_congr fun c => by rw [channel]
        rw [same, same']
        omega
      · next none_ =>
        refine ⟨_, rfl, ⟨?_, nodup', within_setState flushed.within inside _⟩, .inr ⟨?_, ?_⟩⟩
        · apply letGo_tracks tracks' notHeld (by simp)
          intro isOpen some_
          have := drained (by omega) isOpen
          omega
        · rw [cells_congr (setState_numCells w chan .waitingForCells)]
          omega
        · exact (setState_flushed flushed.within chan (by simp) (by simp) chan).waits.trans
            flushed.waits
  · next cannot =>
    obtain ⟨inv, same, waits⟩ := kistDecide_inv turn.compareAfter tracks nodup within inside
    refine ⟨_, rfl, inv, .inr ⟨same.le, waits ?_⟩⟩
    exact Bool.eq_false_iff.mpr cannot

theorem kistPass_inv (inv : KistInv s k) (some_ : k.sched.channelsPending.list ≠ []) :
    ∃ k', kistPass turn k = some k' ∧ KistInv s k' ∧ Shorter s k'.sched k.sched := by
  obtain ⟨chan, w, popped, same, tracks, notHeld, inside, within, startCells, start, -⟩ :=
    pop_tracks turn.compare inv.tracks inv.within some_
  obtain ⟨mid, left, same', tracks', flushed⟩ := leavePrevChan_tracks (k := { k with
    sched := w, outbufTable := outbufTableAdd k.outbufTable chan }) turn chan tracks within
  dsimp only at same' flushed
  rw [← same'] at tracks'
  obtain ⟨k', served, inv', progress⟩ := kistServe_inv turn tracks'
    (List.nodup_cons.mpr ⟨same' ▸ notHeld, same' ▸ inv.nodup⟩) (flushed chan).within inside
  refine ⟨k', ?_, inv', ?_⟩
  · rw [kistPass, popped]
    dsimp only
    rw [same, left]
    exact served
  · have fewer := Flushed.cells (flushed chan) inside
    have waits := (flushed chan).waits
    rcases progress with less | ⟨le, le'⟩
    · exact .inl (by omega)
    · exact .inr ⟨by omega, .inl (by omega)⟩

/-! ## After the loop -/

/-- What holds between events. -/
structure Settled (w : Sched Chan) : Prop where
  tracks : Tracks [] w
  finite : ∃ s, Within s w

omit [Inhabited Chan] in
theorem initSocketInfo_same (limit : Chan → UInt64) (list : List Chan) (w : Sched Chan) :
    (initSocketInfo limit list w).channelsPending = w.channelsPending
      ∧ (initSocketInfo limit list w).channel = w.channel := by
  induction list generalizing w with
  | nil => exact ⟨rfl, rfl⟩
  | cons chan list ih => exact ih _

theorem eachChannelWriteToKernel_tracks (writes : Chan → KernelWrite Chan) (list : List Chan)
    (tracks : Tracks held w) (within : Within s w) :
    ∃ w', eachChannelWriteToKernel writes list w = some w' ∧ Tracks held w' ∧ Within s w' := by
  induction list generalizing w with
  | nil => exact ⟨w, rfl, tracks, within⟩
  | cons chan list ih =>
    obtain ⟨mid, wrote, tracks', flushed⟩ :=
      asides_tracks (writes chan).compare (writes chan).asides tracks within
    obtain ⟨w', rest, tracks'', within'⟩ := ih tracks' (flushed chan).within
    refine ⟨w', ?_, tracks'', within'⟩
    rw [eachChannelWriteToKernel, channelWriteToKernel, wrote]
    exact rest

theorem readd_tracks (tracks : Tracks (chan :: held) w) (notHeld : chan ∉ held)
    (within : Within s w) :
    Tracks held (addPending compare (schedulerSetChannelState w chan .pending) chan)
      ∧ Within (insert chan s)
        (addPending compare (schedulerSetChannelState w chan .pending) chan) := by
  constructor
  · apply addPending_tracks compare tracks _ notHeld hold_cons
    exact (tracks.fits chan).apart List.mem_cons_self
  · have wider : Within (insert chan s) w :=
      fun other outside => within other fun mem => outside (Finset.mem_insert_of_mem mem)
    exact wider.change _ _ fun outside => absurd (Finset.mem_insert_self chan s) outside

section

variable (list : List Chan) (tracks : Tracks list w) (nodup : list.Nodup) (within : Within s w)

include tracks nodup within

theorem kistReadd_settled : Settled (kistReadd compare list w) := by
  induction list generalizing w s with
  | nil => exact ⟨tracks, s, within⟩
  | cons chan list ih =>
    obtain ⟨notHeld, nodup'⟩ := List.nodup_cons.mp nodup
    have absent := (tracks.fits chan).apart List.mem_cons_self
    obtain ⟨tracks', within'⟩ := readd_tracks compare tracks notHeld within
    rw [kistReadd, schedulerSetChannelState_channelsPending, if_neg absent,
      addPendingChecked_eq compare tracks absent]
    exact ih tracks' nodup' within'

theorem vanillaReadd_settled : Settled (vanillaReadd compare list w) := by
  induction list generalizing w s with
  | nil => exact ⟨tracks, s, within⟩
  | cons chan list ih =>
    obtain ⟨notHeld, nodup'⟩ := List.nodup_cons.mp nodup
    obtain ⟨tracks', within'⟩ := readd_tracks compare tracks notHeld within
    exact ih tracks' nodup' within'

end

section

variable {v : VanillaState Chan}

theorem kistStart_inv (tracks : Tracks [] w) (within : Within s w) :
    KistInv s (kistStart run w) := by
  obtain ⟨queue, channel⟩ := initSocketInfo_same run.limit w.channelsPending.list w
  refine ⟨tracks.of_same queue channel, List.nodup_nil, ?_⟩
  rw [kistStart, Within, channel]
  exact within

theorem kistFinish_settled (inv : KistInv s k) : ∃ w', kistFinish run k = some w' ∧ Settled w' := by
  obtain ⟨w', wrote, tracks', within'⟩ := eachChannelWriteToKernel_tracks run.writes
    (run.tableOrder k.outbufTable) inv.tracks inv.within
  rw [kistFinish, wrote]
  exact ⟨_, rfl, kistReadd_settled run.compare k.toReadd tracks' inv.nodup within'⟩

theorem kistSchedulerRun_settled (settled : Settled w) :
    (∃ fuel w', kistSchedulerRun fuel run w = some w')
      ∧ ∀ fuel w', kistSchedulerRun fuel run w = some w' → Settled w' := by
  obtain ⟨tracks, s, within⟩ := settled
  have round : ∀ turn k, KistInv s k → kistMore k = true →
      ∃ k', kistPass turn k = some k' ∧ KistInv s k' ∧ Shorter s k'.sched k.sched :=
    fun turn k inv more => kistPass_inv turn inv (of_decide_eq_true more)
  obtain ⟨⟨fuel, k, ended⟩, all⟩ := whileLoop_total
    (InvImage.wf KistState.sched (shorter_wf s)) round run.turns _ (kistStart_inv run tracks within)
  constructor
  · obtain ⟨w', finished, -⟩ := kistFinish_settled run (all fuel k ended).1
    refine ⟨fuel, w', ?_⟩
    rw [kistSchedulerRun, ended]
    exact finished
  · intro fuel w' ran
    rw [kistSchedulerRun] at ran
    split at ran
    · cases ran
    · next k ended =>
      obtain ⟨w'', finished, settled⟩ := kistFinish_settled run (all fuel k ended).1
      rw [ran] at finished
      cases finished
      exact settled

/-! ## Vanilla -/

/-- The calls of one pass flush as many cells as they are to, or all there are. -/
theorem vanillaFlush_tracks (chan : Chan) (nCells fuel flushed : Nat)
    (flushes : Nat → Nat → FlushPass Chan) (tracks : Tracks held w) (within : Within s w)
    (enough : nCells ≤ flushed + fuel) :
    ∃ n w', vanillaFlush chan nCells fuel flushes flushed w = some (flushed + n, w')
      ∧ Tracks held w' ∧ Flushed s chan n w w'
      ∧ (flushed + n < nCells → (w'.channel chan).isOpen → (w'.channel chan).numCells = 0) := by
  induction fuel generalizing w flushed flushes with
  | zero => exact ⟨0, w, rfl, tracks, Flushed.refl chan within, fun _ => by omega⟩
  | succ fuel ih =>
    rw [vanillaFlush]
    split
    · next more =>
      have positive : 0 < min maxFlushCells (nCells - flushed) := by
        rw [maxFlushCells]
        omega
      obtain ⟨m, mid, done, tracks₁, flushed₁, drained₁⟩ :=
        channelFlushSomeCells_tracks chan (flushes 0) tracks within positive
      rw [done]
      dsimp only
      split
      · next none_ =>
        subst none_
        exact ⟨0, mid, rfl, tracks₁, flushed₁, fun _ isOpen => drained₁ rfl isOpen⟩
      · obtain ⟨n, w', rest, tracks₂, flushed₂, drained₂⟩ := ih (flushed + m)
          (fun n => flushes (n + 1)) tracks₁ flushed₁.within (by omega)
        rw [Nat.add_assoc] at rest drained₂
        exact ⟨m + n, w', rest, tracks₂, flushed₁.trans flushed₂, drained₂⟩
    · next done => exact ⟨0, w, rfl, tracks, Flushed.refl chan within, fun less => by omega⟩

structure VanillaInv (s : Finset Chan) (v : VanillaState Chan) : Prop where
  tracks : Tracks v.toReadd v.sched
  nodup : v.toReadd.Nodup
  within : Within s v.sched

/-- A served channel waits to write only if it has flushed cells. -/
theorem vanillaDecide_inv (turn : VanillaTurn Chan) (flushed : Nat)
    (tracks : Tracks (chan :: v.toReadd) v.sched) (nodup : (chan :: v.toReadd).Nodup)
    (within : Within s v.sched) (inside : chan ∈ s)
    (drained : (flushed : Int) < turn.nCells → (v.sched.channel chan).isOpen →
      (v.sched.channel chan).numCells = 0) :
    VanillaInv s (vanillaDecide turn chan flushed v)
      ∧ cells s (vanillaDecide turn chan flushed v).sched = cells s v.sched
      ∧ ((flushed : Int) < turn.nCells →
        waiting s (vanillaDecide turn chan flushed v).sched ≤ waiting s v.sched) := by
  obtain ⟨notHeld, nodup'⟩ := List.nodup_cons.mp nodup
  have another : ∀ newState, newState ≠ .pending →
      ((v.sched.channel chan).isOpen → 0 < (v.sched.channel chan).numCells →
        newState = .waitingToWrite) →
      VanillaInv s { v with sched := schedulerSetChannelState v.sched chan newState }
        ∧ cells s (schedulerSetChannelState v.sched chan newState) = cells s v.sched := by
    intro newState notPending notLost
    refine ⟨⟨?_, nodup', within_setState within inside _⟩, ?_⟩
    · exact letGo_tracks tracks notHeld notPending notLost
    · exact cells_congr (setState_numCells v.sched chan newState)
  rw [vanillaDecide]
  split
  · next ranOut =>
    obtain ⟨inv, same⟩ := another .waitingForCells (by simp) fun isOpen some_ => by
      have := drained ranOut isOpen
      omega
    refine ⟨inv, same, fun _ => ?_⟩
    exact (setState_flushed within chan (by simp) (by simp) chan).waits
  · next all =>
    split
    · split
      · refine ⟨⟨?_, ?_, within⟩, rfl, fun less => absurd less all⟩
        · apply tracks.held_congr
          intro other
          rw [List.mem_append, List.mem_singleton, List.mem_cons, or_comm]
        · exact (List.perm_append_singleton chan v.toReadd).nodup_iff.mpr nodup
      · obtain ⟨inv, same⟩ := another .waitingToWrite (by simp) fun _ _ => rfl
        exact ⟨inv, same, fun less => absurd less all⟩
    · next empty =>
      split
      · obtain ⟨inv, same⟩ := another .waitingForCells (by simp) fun _ some_ =>
          absurd some_ empty
        exact ⟨inv, same, fun less => absurd less all⟩
      · obtain ⟨inv, same⟩ := another .idle (by simp) fun _ some_ => absurd some_ empty
        exact ⟨inv, same, fun less => absurd less all⟩

theorem vanillaPass_inv (turn : VanillaTurn Chan) (inv : VanillaInv s v)
    (some_ : v.sched.channelsPending.list ≠ []) :
    ∃ v', vanillaPass turn v = some v' ∧ VanillaInv s v' ∧ Shorter s v'.sched v.sched := by
  obtain ⟨chan, w, popped, same, tracks, notHeld, inside, within, startCells, start, length⟩ :=
    pop_tracks turn.compare inv.tracks inv.within some_
  have nodup := List.nodup_cons.mpr ⟨notHeld, inv.nodup⟩
  rw [vanillaPass, popped]
  dsimp only
  rw [same]
  split
  · next positive =>
    obtain ⟨n, w', done, tracks', flushed, drained⟩ := vanillaFlush_tracks chan turn.nCells.toNat
      turn.nCells.toNat 0 turn.flushes tracks within (by omega)
    rw [Nat.zero_add] at done drained
    rw [done]
    obtain ⟨inv', sameCells, waits⟩ := vanillaDecide_inv (v := { v with sched := w' }) turn n
      tracks' nodup flushed.within inside fun less isOpen => drained (by omega) isOpen
    refine ⟨_, rfl, inv', ?_⟩
    have fewer := Flushed.cells flushed inside
    have fewerWaits := flushed.waits
    dsimp only at sameCells waits
    by_cases ranOut : (n : Int) < turn.nCells
    · have := waits ranOut
      exact .inr ⟨by omega, .inl (by omega)⟩
    · exact .inl (by omega)
  · refine ⟨_, rfl, ⟨?_, inv.nodup, within_setState within inside _⟩, .inr ⟨?_, .inr ⟨?_, ?_⟩⟩⟩
    · exact letGo_tracks tracks notHeld (by simp) fun _ _ => rfl
    · rw [cells_congr (setState_numCells w chan .waitingToWrite)]
      omega
    · have waits := setWaitingToWrite_waiting s w chan
      dsimp only
      omega
    · exact length

theorem vanillaSchedulerRun_settled (run : VanillaRun Chan) (settled : Settled w) :
    (∃ fuel w', vanillaSchedulerRun fuel run w = some w')
      ∧ ∀ fuel w', vanillaSchedulerRun fuel run w = some w' → Settled w' := by
  obtain ⟨tracks, s, within⟩ := settled
  have start : VanillaInv s { sched := w, toReadd := [] } := ⟨tracks, List.nodup_nil, within⟩
  have round : ∀ turn v, VanillaInv s v → vanillaMore v = true →
      ∃ v', vanillaPass turn v = some v' ∧ VanillaInv s v' ∧ Shorter s v'.sched v.sched :=
    fun turn v inv more => vanillaPass_inv turn inv (of_decide_eq_true more)
  obtain ⟨⟨fuel, v, ended⟩, all⟩ := whileLoop_total
    (InvImage.wf VanillaState.sched (shorter_wf s)) round run.turns _ start
  constructor
  · refine ⟨fuel, vanillaReadd run.compare v.toReadd v.sched, ?_⟩
    rw [vanillaSchedulerRun, ended]
  · intro fuel w' ran
    rw [vanillaSchedulerRun] at ran
    split at ran
    · cases ran
    · next v ended =>
      cases ran
      obtain ⟨inv, -⟩ := all fuel v ended
      exact vanillaReadd_settled run.compare v.toReadd inv.tracks inv.nodup inv.within

end

end

end RendezMix.Guarantees.SchedulerLoops

/-!
# Runs of the scheduler

Between all events the channels in the queue are those that are pending, every
event returns, and no open channel that has cells is lost.
-/
namespace RendezMix.Guarantees.SchedulerRuns

open Library.Runs Source.SmartlistPqueue Source.Scheduler PqueueOrder SchedulerTracking
open SchedulerLoops

variable {Chan : Type} [DecidableEq Chan] [Inhabited Chan] {s : Finset Chan}

/-! ## Events -/

theorem settled_of_tracks {w : Sched Chan} {chan : Chan} {c : Channel} {sl : Pqueue Chan}
    {table : Chan → Option SocketInfo}
    (tracks : Tracks [] ⟨sl, Function.update w.channel chan c, table⟩) (within : Within s w) :
    Settled (⟨sl, Function.update w.channel chan c, table⟩ : Sched Chan) := by
  refine ⟨tracks, insert chan s, ?_⟩
  have wider : Within (insert chan s) w :=
    fun other outside => within other fun mem => outside (Finset.mem_insert_of_mem mem)
  exact wider.change sl table fun outside => absurd (Finset.mem_insert_self chan s) outside

theorem doesntWantWrites_settled (compare : Chan → Chan → Int) {w : Sched Chan} (chan : Chan)
    (settled : Settled w) :
    ∃ w', schedulerChannelDoesntWantWrites compare w chan = some w' ∧ Settled w' := by
  obtain ⟨tracks, s, within⟩ := settled
  have fits := tracks.fits chan
  rw [schedulerChannelDoesntWantWrites]
  split
  · next pending =>
    have mem := (fits.marked pending).resolve_right List.not_mem_nil
    obtain ⟨sl, removed, out⟩ := tracks.placed.remove compare mem
    rw [removePending, removed]
    refine ⟨_, rfl, settled_of_tracks ?_ within⟩
    apply tracks.change w.socketTable out.placed _ _ fun _ _ => Iff.rfl
    · constructor
      · exact fun inside => absurd rfl ((out.mem_iff chan).mp inside).2
      · exact fun same => by cases same
      · exact fun isHeld => absurd isHeld List.not_mem_nil
      · exact fun isHeld => absurd isHeld List.not_mem_nil
      · exact fun _ _ => .inr rfl
    · intro other differ
      rw [out.mem_iff]
      exact ⟨And.left, fun inside => ⟨inside, differ⟩⟩
  · next waitingForCells =>
    refine ⟨_, rfl, settled_of_tracks ?_ within⟩
    apply setState_tracks tracks _ (by simp) (fun _ => by simp) _ fun _ _ => Iff.rfl
    · exact absent_of_state tracks (by rw [waitingForCells]; simp)
    · intro isOpen some_
      have known := fits.notLost isOpen some_
      simp [waitingForCells] at known
  · exact ⟨w, rfl, tracks, s, within⟩

/-- A channel that gets cells is pending or waiting to write from then on. -/
theorem hasWaitingCells_settled (compare : Chan → Chan → Int) {w : Sched Chan} (chan : Chan)
    (n : Nat) (settled : Settled w) :
    Settled (schedulerChannelHasWaitingCells compare (queueCells w chan n) chan) := by
  obtain ⟨tracks, s, within⟩ := settled
  obtain ⟨queued, marked, apart, still, notLost⟩ := tracks.fits chan
  have state : ((queueCells w chan n).channel chan).schedulerState
      = (w.channel chan).schedulerState := by
    rw [queueCells, setChannel_same]
  rw [schedulerChannelHasWaitingCells, state]
  split
  · next waitingForCells =>
    have absent := absent_of_state tracks (by rw [waitingForCells]; simp)
    have added : ¬ (queueCells w chan n).channelsPending.idx chan ≠ -1 :=
      fun inside => inside (tracks.placed.out chan absent)
    obtain ⟨placed, mem_iff, -⟩ := tracks.placed.add compare absent
    rw [addPendingChecked, schedulerSetChannelState_channelsPending, if_neg added]
    simp only [addPending, schedulerSetChannelState, queueCells, Sched.setChannel,
      Function.update_self, Function.update_idem]
    refine settled_of_tracks (tracks.change w.socketTable placed ?_ ?_ fun _ _ => Iff.rfl) within
    · constructor
      · exact fun _ => rfl
      · exact fun _ => .inl ((mem_iff chan).mpr (.inl rfl))
      · exact fun isHeld => absurd isHeld List.not_mem_nil
      · exact fun isHeld => absurd isHeld List.not_mem_nil
      · exact fun _ _ => .inl rfl
    · intro other differ
      rw [mem_iff]
      exact ⟨fun mem => mem.resolve_left differ, .inr⟩
  · next idle =>
    have absent := absent_of_state tracks (by rw [idle]; simp)
    simp only [schedulerSetChannelState, queueCells, Sched.setChannel, Function.update_self,
      Function.update_idem]
    refine settled_of_tracks (tracks.change w.socketTable tracks.placed ?_ (fun _ _ => Iff.rfl)
      fun _ _ => Iff.rfl) within
    constructor
    · exact fun mem => absurd mem absent
    · exact fun same => by cases same
    · exact fun isHeld => absurd isHeld List.not_mem_nil
    · exact fun isHeld => absurd isHeld List.not_mem_nil
    · exact fun _ _ => .inr rfl
  · next notWaiting notIdle =>
    refine settled_of_tracks (tracks.change w.socketTable tracks.placed ?_ (fun _ _ => Iff.rfl)
      fun _ _ => Iff.rfl) within
    refine ⟨queued, marked, apart, still, fun _ _ => ?_⟩
    cases state' : (w.channel chan).schedulerState with
    | idle => exact absurd state' notIdle
    | waitingForCells => exact absurd state' notWaiting
    | waitingToWrite => exact .inr rfl
    | pending => exact .inl rfl

theorem schedStep_settled {w : Sched Chan} (settled : Settled w) (ev : SchedEvent Chan) :
    (∃ w', SchedStep w ev w') ∧ ∀ w', SchedStep w ev w' → Settled w' := by
  cases ev with
  | wantsWrites compare chan =>
    refine ⟨⟨_, rfl⟩, ?_⟩
    rintro w' rfl
    obtain ⟨tracks, s, within⟩ := settled
    obtain ⟨tracks', flushed⟩ := wantsWrites_tracks compare tracks within chan
    exact ⟨tracks', s, (flushed chan).within⟩
  | doesntWantWrites compare chan =>
    obtain ⟨w', done, settled'⟩ := doesntWantWrites_settled compare chan settled
    refine ⟨⟨w', done⟩, ?_⟩
    intro w'' done'
    cases done.symm.trans done'
    exact settled'
  | hasWaitingCells compare chan n =>
    refine ⟨⟨_, rfl⟩, ?_⟩
    rintro w' rfl
    exact hasWaitingCells_settled compare chan n settled
  | release compare chan =>
    obtain ⟨tracks, s, within⟩ := settled
    obtain ⟨w', closed, tracks', flushed⟩ := closeChannel_tracks compare tracks within chan
    refine ⟨⟨w', closed⟩, ?_⟩
    intro w'' closed'
    cases closed.symm.trans closed'
    exact ⟨tracks', s, (flushed chan).within⟩
  | kistRun run =>
    obtain ⟨⟨fuel, w', ran⟩, all⟩ := kistSchedulerRun_settled run settled
    refine ⟨⟨w', fuel, ran⟩, ?_⟩
    rintro w'' ⟨fuel', ran'⟩
    exact all fuel' w'' ran'
  | vanillaRun run =>
    obtain ⟨⟨fuel, w', ran⟩, all⟩ := vanillaSchedulerRun_settled run settled
    refine ⟨⟨w', fuel, ran⟩, ?_⟩
    rintro w'' ⟨fuel', ran'⟩
    exact all fuel' w'' ran'

omit [DecidableEq Chan] in
theorem newSched_settled (isOpen : Chan → Bool) : Settled (newSched isOpen) := by
  refine ⟨⟨⟨⟨List.nodup_nil, fun i inside => absurd inside (Nat.not_lt_zero i)⟩, fun _ _ => rfl⟩,
    ?_⟩, ∅, fun _ _ => ⟨rfl, by simp [newSched], by simp [newSched]⟩⟩
  intro chan
  constructor
  · exact fun mem => absurd mem List.not_mem_nil
  · exact fun same => by cases same
  · exact fun isHeld => absurd isHeld List.not_mem_nil
  · exact fun isHeld => absurd isHeld List.not_mem_nil
  · exact fun _ some_ => absurd some_ (Nat.lt_irrefl 0)

/-- The queue has the pending channels, each once, and the channels store their
positions in it, or -1. -/
structure InPlace (w : Sched Chan) : Prop where
  pending : ∀ chan, chan ∈ w.channelsPending.list ↔ (w.channel chan).schedulerState = .pending
  once : w.channelsPending.list.Nodup
  position : ∀ i, i < w.channelsPending.list.length →
    w.channelsPending.idx (w.channelsPending.get i) = i
  out : ∀ chan, chan ∉ w.channelsPending.list → w.channelsPending.idx chan = -1

/-- An open channel with cells is waiting for neither cells nor anything. -/
def NoneLost (w : Sched Chan) : Prop :=
  ∀ chan, (w.channel chan).isOpen → 0 < (w.channel chan).numCells →
    (w.channel chan).schedulerState ≠ .idle ∧ (w.channel chan).schedulerState ≠ .waitingForCells

omit [DecidableEq Chan] in
theorem inPlace_of_settled {w : Sched Chan} (settled : Settled w) : InPlace w := by
  obtain ⟨⟨placed, fits⟩, -⟩ := settled
  refine ⟨?_, placed.indexed.nodup, placed.indexed.idx_get, placed.out⟩
  intro chan
  constructor
  · exact (fits chan).queued
  · exact fun pending => ((fits chan).marked pending).resolve_right List.not_mem_nil

omit [DecidableEq Chan] in
theorem noneLost_of_settled {w : Sched Chan} (settled : Settled w) : NoneLost w := by
  intro chan isOpen some_
  rcases (settled.tracks.fits chan).notLost isOpen some_ with state | state
  · rw [state]
    exact ⟨by simp, by simp⟩
  · rw [state]
    exact ⟨by simp, by simp⟩

/-- Between any events the channels are in place. From there on every event
returns: no channel is removed from the queue that is not in it, and every scheduler
run ends. After a scheduler run no channel is lost. -/
theorem schedRun_keepsChannels (isOpen : Chan → Bool)
    {ts : List (Transition (Sched Chan) (SchedEvent Chan))} {w : Sched Chan}
    (run : Run SchedStep (newSched isOpen) ts w) :
    InPlace w ∧ (∀ ev, ∃ w', SchedStep w ev w')
      ∧ ∀ ev w', ev.isRun = true → SchedStep w ev w' → InPlace w' ∧ NoneLost w' := by
  have settled : Settled w := run.invariant (newSched_settled isOpen)
    fun w ev w' settled step => (schedStep_settled settled ev).2 w' step
  refine ⟨inPlace_of_settled settled, fun ev => (schedStep_settled settled ev).1, ?_⟩
  intro ev w' _ step
  have settled' := (schedStep_settled settled ev).2 w' step
  exact ⟨inPlace_of_settled settled', noneLost_of_settled settled'⟩

def byNumber (x y : Nat) : Int := x - y

/-- A channel that can write. -/
def oneWriteable : Sched Nat :=
  schedulerChannelWantsWrites byNumber (newSched fun _ => true) 5

/-- The channel has got two cells. -/
def twoCells : Sched Nat :=
  schedulerChannelHasWaitingCells byNumber (queueCells oneWriteable 5 2) 5

theorem schedRun_keepsChannels_twoCells :
    InPlace twoCells ∧ (∀ ev, ∃ w', SchedStep twoCells ev w')
      ∧ ∀ ev w', ev.isRun = true → SchedStep twoCells ev w' → InPlace w' ∧ NoneLost w' := by
  have writeable : SchedStep (newSched fun _ => true) (.wantsWrites byNumber 5)
      oneWriteable := rfl
  have cells : SchedStep oneWriteable (.hasWaitingCells byNumber 5 2) twoCells := rfl
  exact schedRun_keepsChannels (fun _ => true) (Run.snoc (Run.single writeable) cells)

end RendezMix.Guarantees.SchedulerRuns
