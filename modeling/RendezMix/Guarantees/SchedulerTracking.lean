import RendezMix.Guarantees.PqueueOrder
import RendezMix.Library.Runs
import RendezMix.Source.Scheduler

/-!
# The scheduler keeps track of the channels

Between events the pending channels are those in the queue. In a scheduler run the
channels that have been popped and not been put back are held: they may be marked
as pending, but are not in the queue. Channels that are closed or get writable
while others are served change neither, and a channel that has cells is never taken
for one that has none.
-/
namespace RendezMix.Guarantees.SchedulerTracking

open Library.Runs Library.WhileLoops Source.SmartlistPqueue Source.Scheduler PqueueOrder

variable {Chan : Type} [DecidableEq Chan]

/-! ## Counting -/

/-- All channels that have cells or may be popped are among those of `s`. -/
def Within (s : Finset Chan) (w : Sched Chan) : Prop :=
  ∀ chan, chan ∉ s → (w.channel chan).numCells = 0
    ∧ (w.channel chan).schedulerState ≠ .waitingToWrite
    ∧ (w.channel chan).schedulerState ≠ .pending

/-- The cells of some channels. -/
def cells (s : Finset Chan) (w : Sched Chan) : Nat := ∑ chan ∈ s, (w.channel chan).numCells

/-- Those of some channels that are waiting to write. -/
def toWrite (s : Finset Chan) (w : Sched Chan) : Finset Chan :=
  s.filter fun chan => (w.channel chan).schedulerState = .waitingToWrite

/-- How many channels may still be popped. -/
def waiting (s : Finset Chan) (w : Sched Chan) : Nat :=
  (toWrite s w).card + w.channelsPending.list.length

theorem toWrite_change (s : Finset Chan) (w : Sched Chan) {chan : Chan} {c : Channel}
    (sl : Pqueue Chan) (table : Chan → Option SocketInfo)
    (other : c.schedulerState ≠ .waitingToWrite) :
    toWrite s ⟨sl, Function.update w.channel chan c, table⟩ = (toWrite s w).erase chan := by
  ext x
  rw [Finset.mem_erase, toWrite, toWrite, Finset.mem_filter, Finset.mem_filter]
  by_cases same : x = chan
  · subst same
    simp [other]
  · simp [same]

theorem Within.change {s : Finset Chan} {w : Sched Chan} (within : Within s w) {chan : Chan}
    {c : Channel} (sl : Pqueue Chan) (table : Chan → Option SocketInfo)
    (known : chan ∉ s → c.numCells = 0 ∧ c.schedulerState ≠ .waitingToWrite
      ∧ c.schedulerState ≠ .pending) : Within s ⟨sl, Function.update w.channel chan c, table⟩ := by
  intro other outside
  by_cases same : other = chan
  · subst same
    dsimp only
    rw [Function.update_self]
    exact known outside
  · dsimp only
    rw [Function.update_of_ne same]
    exact within other outside

/-- Going from `w` to `w'`, a channel has flushed `n` cells. -/
structure Flushed (s : Finset Chan) (chan : Chan) (n : Nat) (w w' : Sched Chan) : Prop where
  fewer : n + (w'.channel chan).numCells ≤ (w.channel chan).numCells
  others : ∀ c, c ≠ chan → (w'.channel c).numCells = (w.channel c).numCells
  opens : ∀ c, (w'.channel c).isOpen → (w.channel c).isOpen
  waits : waiting s w' ≤ waiting s w
  within : Within s w'

omit [DecidableEq Chan] in
theorem Flushed.refl {s : Finset Chan} (chan : Chan) {w : Sched Chan} (within : Within s w) :
    Flushed s chan 0 w w :=
  ⟨by omega, fun _ _ => rfl, fun _ => id, Nat.le_refl _, within⟩

omit [DecidableEq Chan] in
theorem Flushed.trans {s : Finset Chan} {chan : Chan} {m n : Nat} {w₁ w₂ w₃ : Sched Chan}
    (first : Flushed s chan m w₁ w₂) (second : Flushed s chan n w₂ w₃) :
    Flushed s chan (m + n) w₁ w₃ := by
  have fewer₁ := first.fewer
  have fewer₂ := second.fewer
  constructor
  · omega
  · intro c other
    rw [second.others c other, first.others c other]
  · exact fun c isOpen => first.opens c (second.opens c isOpen)
  · exact second.waits.trans first.waits
  · exact second.within

theorem Flushed.take {s : Finset Chan} {w : Sched Chan} (within : Within s w) (chan : Chan)
    {n left : Nat} (fewer : n + left ≤ (w.channel chan).numCells) :
    Flushed s chan n w (w.setChannel chan { w.channel chan with numCells := left }) := by
  have state : ∀ other, ((w.setChannel chan { w.channel chan with numCells := left }).channel
      other).schedulerState = (w.channel other).schedulerState := by
    intro other
    by_cases same : other = chan
    · subst same
      rw [setChannel_same]
    · rw [setChannel_other w _ same]
  constructor
  · rw [setChannel_same]
    exact fewer
  · intro other differ
    rw [setChannel_other w _ differ]
  · intro other
    by_cases same : other = chan
    · subst same
      rw [setChannel_same]
      exact id
    · rw [setChannel_other w _ same]
      exact id
  · have same : toWrite s (w.setChannel chan { w.channel chan with numCells := left })
        = toWrite s w := Finset.filter_congr fun other _ => by rw [state]
    rw [waiting, waiting, same]
    exact Nat.le_refl _
  · apply within.change
    intro outside
    have known := within chan outside
    exact ⟨by dsimp only; omega, known.2⟩

/-- One channel changes and keeps its cells. -/
theorem Flushed.change {s : Finset Chan} {w : Sched Chan} {chan : Chan} {c : Channel}
    {sl : Pqueue Chan} (table : Chan → Option SocketInfo)
    (cells : c.numCells = (w.channel chan).numCells) (opens : c.isOpen → (w.channel chan).isOpen)
    (fewer : waiting s ⟨sl, Function.update w.channel chan c, table⟩ ≤ waiting s w)
    (within : Within s ⟨sl, Function.update w.channel chan c, table⟩) (served : Chan) :
    Flushed s served 0 w ⟨sl, Function.update w.channel chan c, table⟩ := by
  have numCells : ∀ other, (Function.update w.channel chan c other).numCells
      = (w.channel other).numCells := by
    intro other
    by_cases same : other = chan
    · subst same
      rw [Function.update_self, cells]
    · rw [Function.update_of_ne same]
  constructor
  · rw [numCells, Nat.zero_add]
  · intro other _
    exact numCells other
  · intro other
    by_cases same : other = chan
    · subst same
      simp only [Function.update_self]
      exact opens
    · simp only [Function.update_of_ne same]
      exact id
  · exact fewer
  · exact within

variable [Inhabited Chan]

/-! ## The queue -/

/-- The items in the queue store their positions, and all others store -1. -/
structure Placed (sl : Pqueue Chan) : Prop where
  indexed : Indexed sl
  out : ∀ chan, chan ∉ sl.list → sl.idx chan = -1

section

variable (compare : Chan → Chan → Int) {sl : Pqueue Chan} {chan : Chan}

theorem Placed.idx_ne_iff (placed : Placed sl) (chan : Chan) :
    sl.idx chan ≠ -1 ↔ chan ∈ sl.list := by
  constructor
  · intro inside
    by_contra absent
    exact inside (placed.out chan absent)
  · intro mem
    obtain ⟨i, position, -, -⟩ := placed.indexed.idx_eq mem
    omega

/-- An item is taken out of the queue. -/
structure TakenOut (sl : Pqueue Chan) (chan : Chan) (sl' : Pqueue Chan) : Prop where
  placed : Placed sl'
  mem_iff : ∀ c, c ∈ sl'.list ↔ c ∈ sl.list ∧ c ≠ chan
  length : sl.list.length = sl'.list.length + 1

theorem Placed.takenOut {sl sl' : Pqueue Chan} (placed : Placed sl)
    (removed : Removed sl chan sl') : TakenOut sl chan sl' := by
  have absent := removed.not_mem placed.indexed
  have mem_iff : ∀ c, c ∈ sl'.list ↔ c ∈ sl.list ∧ c ≠ chan := by
    intro c
    rw [removed.perm.mem_iff, List.mem_cons]
    constructor
    · intro mem
      refine ⟨.inr mem, ?_⟩
      rintro rfl
      exact absent mem
    · rintro ⟨same | mem, other⟩
      · exact absurd same other
      · exact mem
  refine ⟨⟨removed.indexed, ?_⟩, mem_iff, removed.perm.length_eq⟩
  intro c outside
  by_cases same : c = chan
  · rw [same, removed.out]
  · have outside' : c ∉ sl.list := fun mem => outside ((mem_iff c).mpr ⟨mem, same⟩)
    rw [removed.frame c outside', placed.out c outside']

theorem Placed.pop (placed : Placed sl) (some_ : sl.list ≠ []) :
    ∃ chan sl', smartlistPqueuePop compare sl = some (chan, sl') ∧ chan ∈ sl.list
      ∧ TakenOut sl chan sl' := by
  obtain ⟨sl', popped, removed⟩ := smartlistPqueuePop_removed compare placed.indexed some_
  exact ⟨_, sl', popped, get_mem sl (List.length_pos_iff.mpr some_), placed.takenOut removed⟩

theorem Placed.remove (placed : Placed sl) (mem : chan ∈ sl.list) :
    ∃ sl', smartlistPqueueRemove compare sl chan = some sl' ∧ TakenOut sl chan sl' := by
  obtain ⟨sl', done, removed⟩ := smartlistPqueueRemove_removed compare placed.indexed mem
  exact ⟨sl', done, placed.takenOut removed⟩

theorem Placed.add (placed : Placed sl) (absent : chan ∉ sl.list) :
    Placed (smartlistPqueueAdd compare sl chan)
      ∧ (∀ c, c ∈ (smartlistPqueueAdd compare sl chan).list ↔ c = chan ∨ c ∈ sl.list)
      ∧ (smartlistPqueueAdd compare sl chan).list.length = sl.list.length + 1 := by
  have added := smartlistPqueueAdd_added compare sl chan
  refine ⟨⟨added.indexed absent placed.indexed, ?_⟩, ?_, added.perm.length_eq⟩
  · intro c outside
    rw [added.perm.mem_iff] at outside
    rw [added.frame c outside, placed.out c fun mem => outside (List.mem_cons_of_mem _ mem)]
  · intro c
    rw [added.perm.mem_iff, List.mem_cons]

end

/-! ## Channels -/

/-- What holds of a channel at each moment: if it is in the queue it is pending, if
it is pending otherwise it is held, and a held one cannot get into the queue. If it
is open and has cells, it is pending or waiting to write. -/
structure Fits (held : List Chan) (sl : Pqueue Chan) (chan : Chan) (c : Channel) : Prop where
  queued : chan ∈ sl.list → c.schedulerState = .pending
  marked : c.schedulerState = .pending → chan ∈ sl.list ∨ chan ∈ held
  apart : chan ∈ held → chan ∉ sl.list
  still : chan ∈ held → c.schedulerState ≠ .waitingToWrite
  notLost : c.isOpen → 0 < c.numCells →
    c.schedulerState = .pending ∨ c.schedulerState = .waitingToWrite

structure Tracks (held : List Chan) (w : Sched Chan) : Prop where
  placed : Placed w.channelsPending
  fits : ∀ chan, Fits held w.channelsPending chan (w.channel chan)

/-- One channel changes, and perhaps its place in the queue and whether it is held. -/
theorem Tracks.change {held held' : List Chan} {w : Sched Chan} (tracks : Tracks held w)
    {chan : Chan} {c : Channel} {sl : Pqueue Chan} (table : Chan → Option SocketInfo)
    (placed : Placed sl) (fits : Fits held' sl chan c)
    (queue : ∀ other, other ≠ chan → (other ∈ sl.list ↔ other ∈ w.channelsPending.list))
    (hold : ∀ other, other ≠ chan → (other ∈ held' ↔ other ∈ held)) :
    Tracks held' ⟨sl, Function.update w.channel chan c, table⟩ := by
  refine ⟨placed, ?_⟩
  intro other
  by_cases same : other = chan
  · subst same
    dsimp only
    rw [Function.update_self]
    exact fits
  · dsimp only
    rw [Function.update_of_ne same]
    have before := tracks.fits other
    constructor
    · rw [queue other same]
      exact before.queued
    · rw [queue other same, hold other same]
      exact before.marked
    · rw [queue other same, hold other same]
      exact before.apart
    · rw [hold other same]
      exact before.still
    · exact before.notLost

/-! ## Calls -/

variable {held : List Chan} {s : Finset Chan} {w : Sched Chan}

section

variable (compare : Chan → Chan → Int) {held' : List Chan} (chan : Chan)

theorem closeChannel_eq (placed : Placed w.channelsPending) (chan : Chan) :
    ∃ sl table, closeChannel compare w chan = some ⟨sl, Function.update w.channel chan
        { schedulerState := .idle, isOpen := false, numCells := (w.channel chan).numCells }, table⟩
      ∧ Placed sl ∧ (∀ c, c ∈ sl.list ↔ c ∈ w.channelsPending.list ∧ c ≠ chan)
      ∧ sl.list.length ≤ w.channelsPending.list.length := by
  rw [closeChannel, schedulerReleaseChannel]
  by_cases mem : chan ∈ w.channelsPending.list
  · obtain ⟨sl, removed, out⟩ := placed.remove compare mem
    have inside : (w.setChannel chan { w.channel chan with isOpen := false }).channelsPending.idx
        chan ≠ -1 := (placed.idx_ne_iff chan).mpr mem
    rw [if_pos inside, removePending]
    simp only [Sched.setChannel, removed, schedulerSetChannelState, Function.update_self,
      Function.update_idem]
    exact ⟨sl, _, rfl, out.placed, out.mem_iff, by have := out.length; omega⟩
  · have outside : ¬ (w.setChannel chan
        { w.channel chan with isOpen := false }).channelsPending.idx chan ≠ -1 :=
      fun inside => mem ((placed.idx_ne_iff chan).mp inside)
    rw [if_neg outside]
    simp only [Sched.setChannel, schedulerSetChannelState, Function.update_self,
      Function.update_idem]
    refine ⟨_, _, rfl, placed, ?_, Nat.le_refl _⟩
    intro c
    constructor
    · intro inside
      refine ⟨inside, ?_⟩
      rintro rfl
      exact mem inside
    · exact And.left

theorem closeChannel_tracks (tracks : Tracks held w) (within : Within s w) (chan : Chan) :
    ∃ w', closeChannel compare w chan = some w' ∧ Tracks held w'
      ∧ ∀ served, Flushed s served 0 w w' := by
  obtain ⟨sl, table, closed, placed, mem_iff, shorter⟩ :=
    closeChannel_eq compare tracks.placed chan
  refine ⟨_, closed, tracks.change table placed ?_ ?_ fun _ _ => Iff.rfl, ?_⟩
  · constructor
    · exact fun mem => absurd rfl ((mem_iff chan).mp mem).2
    · exact fun same => by cases same
    · exact fun _ mem => absurd rfl ((mem_iff chan).mp mem).2
    · exact fun _ same => by cases same
    · exact fun isOpen => by cases isOpen
  · intro other differ
    rw [mem_iff]
    exact ⟨And.left, fun mem => ⟨mem, differ⟩⟩
  · apply Flushed.change table
    · rfl
    · exact fun isOpen => by cases isOpen
    · rw [waiting, waiting, toWrite_change s w sl table (by simp)]
      exact Nat.add_le_add (Finset.card_erase_le) shorter
    · exact within.change sl table fun outside => ⟨(within chan outside).1, by simp, by simp⟩

theorem addPending_tracks (tracks : Tracks held w) {chan : Chan}
    (absent : chan ∉ w.channelsPending.list) (notHeld : chan ∉ held')
    (hold : ∀ other, other ≠ chan → (other ∈ held' ↔ other ∈ held)) :
    Tracks held' (addPending compare (schedulerSetChannelState w chan .pending) chan) := by
  obtain ⟨placed, mem_iff, -⟩ := tracks.placed.add compare absent
  apply tracks.change w.socketTable placed _ _ hold
  · constructor
    · exact fun _ => rfl
    · exact fun _ => .inl ((mem_iff chan).mpr (.inl rfl))
    · exact fun mem => absurd mem notHeld
    · exact fun mem => absurd mem notHeld
    · exact fun _ _ => .inl rfl
  · intro other differ
    rw [mem_iff]
    exact ⟨fun mem => mem.resolve_left differ, .inr⟩

/-- A channel outside of the queue gets another state than pending. -/
theorem setState_tracks (tracks : Tracks held w) {chan : Chan} {newState : SchedState}
    (absent : chan ∉ w.channelsPending.list) (notPending : newState ≠ .pending)
    (still : chan ∈ held' → newState ≠ .waitingToWrite)
    (notLost : (w.channel chan).isOpen → 0 < (w.channel chan).numCells →
      newState = .waitingToWrite) (hold : ∀ other, other ≠ chan → (other ∈ held' ↔ other ∈ held)) :
    Tracks held' (schedulerSetChannelState w chan newState) := by
  apply tracks.change w.socketTable tracks.placed _ (fun _ _ => Iff.rfl) hold
  constructor
  · exact fun mem => absurd mem absent
  · exact fun same => absurd same notPending
  · exact fun _ => absent
  · exact still
  · exact fun isOpen some_ => .inr (notLost isOpen some_)

omit [Inhabited Chan] in
theorem setState_flushed (within : Within s w) (chan : Chan) {newState : SchedState}
    (notPending : newState ≠ .pending) (notToWrite : newState ≠ .waitingToWrite) (served : Chan) :
    Flushed s served 0 w (schedulerSetChannelState w chan newState) := by
  apply Flushed.change w.socketTable
  · rfl
  · exact id
  · rw [waiting, waiting, toWrite_change s w _ _ notToWrite]
    exact Nat.add_le_add Finset.card_erase_le (Nat.le_refl _)
  · exact within.change _ _ fun outside => ⟨(within chan outside).1, notToWrite, notPending⟩

omit [DecidableEq Chan] in
theorem absent_of_state (tracks : Tracks held w) {chan : Chan}
    (other : (w.channel chan).schedulerState ≠ .pending) : chan ∉ w.channelsPending.list :=
  fun mem => other ((tracks.fits chan).queued mem)

theorem addPendingChecked_eq (tracks : Tracks held w) {chan : Chan}
    (absent : chan ∉ w.channelsPending.list) (newState : SchedState) :
    addPendingChecked compare (schedulerSetChannelState w chan newState) chan
      = addPending compare (schedulerSetChannelState w chan newState) chan :=
  if_neg fun inside => inside (tracks.placed.out chan absent)

theorem wantsWrites_tracks (tracks : Tracks held w) (within : Within s w) (chan : Chan) :
    Tracks held (schedulerChannelWantsWrites compare w chan)
      ∧ ∀ served, Flushed s served 0 w (schedulerChannelWantsWrites compare w chan) := by
  have fits := tracks.fits chan
  rw [schedulerChannelWantsWrites]
  split
  · next toWrite_ =>
    have absent := absent_of_state tracks (by rw [toWrite_]; simp)
    rw [addPendingChecked_eq compare tracks absent]
    constructor
    · apply addPending_tracks compare tracks absent _ fun _ _ => Iff.rfl
      exact fun mem => fits.still mem toWrite_
    · obtain ⟨-, -, longer⟩ := tracks.placed.add compare absent
      apply Flushed.change w.socketTable
      · rfl
      · exact id
      · have inside : chan ∈ toWrite s w := by
          rw [toWrite, Finset.mem_filter]
          refine ⟨?_, toWrite_⟩
          by_contra outside
          exact (within chan outside).2.1 toWrite_
        rw [waiting, waiting, toWrite_change s w _ _ (by simp)]
        have fewer := Finset.card_erase_add_one inside
        rw [schedulerSetChannelState_channelsPending, longer]
        omega
      · apply within.change
        exact fun outside => absurd toWrite_ (within chan outside).2.1
  · next idle =>
    have absent := absent_of_state tracks (by rw [idle]; simp)
    constructor
    · apply setState_tracks tracks absent (by simp) (fun _ => by simp) _ fun _ _ => Iff.rfl
      intro isOpen some_
      have known := fits.notLost isOpen some_
      simp [idle] at known
    · exact setState_flushed within chan (by simp) (by simp)
  · exact ⟨tracks, fun served => Flushed.refl served within⟩

theorem asides_tracks (list : List (Aside Chan)) (tracks : Tracks held w) (within : Within s w) :
    ∃ w', asides compare list w = some w' ∧ Tracks held w' ∧ ∀ served, Flushed s served 0 w w' := by
  induction list generalizing w with
  | nil => exact ⟨w, rfl, tracks, fun served => Flushed.refl served within⟩
  | cons aside list ih =>
    cases aside with
    | closes chan =>
      obtain ⟨mid, closed, tracks', flushed⟩ := closeChannel_tracks compare tracks within chan
      obtain ⟨w', done, tracks'', flushed'⟩ := ih tracks' (flushed chan).within
      refine ⟨w', ?_, tracks'', fun served => (flushed served).trans (flushed' served)⟩
      rw [asides, closed]
      exact done
    | wantsWrites chan =>
      obtain ⟨tracks', flushed⟩ := wantsWrites_tracks compare tracks within chan
      obtain ⟨w', done, tracks'', flushed'⟩ := ih tracks' (flushed chan).within
      exact ⟨w', done, tracks'', fun served => (flushed served).trans (flushed' served)⟩

omit [DecidableEq Chan] in
theorem Tracks.of_same {w' : Sched Chan} (tracks : Tracks held w)
    (queue : w'.channelsPending = w.channelsPending) (channel : w'.channel = w.channel) :
    Tracks held w' := by
  refine ⟨queue ▸ tracks.placed, ?_⟩
  rw [queue, channel]
  exact tracks.fits

omit [DecidableEq Chan] in
theorem Tracks.held_congr (tracks : Tracks held w) (same : ∀ chan, chan ∈ held' ↔ chan ∈ held) :
    Tracks held' w := by
  refine ⟨tracks.placed, ?_⟩
  intro chan
  obtain ⟨queued, marked, apart, still, notLost⟩ := tracks.fits chan
  rw [← same chan] at marked apart still
  exact ⟨queued, marked, apart, still, notLost⟩

/-! ## Flushing -/

/-- A pass takes at least one cell, and sends at most one. -/
theorem flushPass_tracks (pass : FlushPass Chan) (tracks : Tracks held w) (within : Within s w)
    (some_ : 0 < (w.channel chan).numCells) :
    ∃ w', flushPass chan pass w = some w' ∧ Tracks held w'
      ∧ Flushed s chan pass.outcome.flushed w w'
      ∧ (w'.channel chan).numCells < (w.channel chan).numCells := by
  have gone : pass.outcome.flushed ≤ pass.outcome.gone ∧ pass.outcome.flushed ≤ 1
      ∧ 0 < pass.outcome.gone := by
    cases pass.outcome <;> simp [PassOutcome.flushed, PassOutcome.gone]
  have fits := tracks.fits chan
  have flushed : Flushed s chan pass.outcome.flushed w (w.setChannel chan { w.channel chan with
      numCells := (w.channel chan).numCells - pass.outcome.gone }) :=
    Flushed.take within chan (by omega)
  rw [flushPass]
  have tracks₁ : Tracks held (w.setChannel chan { w.channel chan with
      numCells := (w.channel chan).numCells - pass.outcome.gone }) := by
    apply tracks.change w.socketTable tracks.placed _ (fun _ _ => Iff.rfl) fun _ _ => Iff.rfl
    refine ⟨fits.queued, fits.marked, fits.apart, fits.still, ?_⟩
    exact fun isOpen _ => fits.notLost isOpen some_
  have fewer : ((w.setChannel chan { w.channel chan with
      numCells := (w.channel chan).numCells - pass.outcome.gone }).channel chan).numCells
        < (w.channel chan).numCells := by
    rw [setChannel_same]
    dsimp only
    omega
  generalize w.setChannel chan { w.channel chan with
      numCells := (w.channel chan).numCells - pass.outcome.gone } = taken at flushed tracks₁ fewer ⊢
  obtain ⟨mid, marked, tracks₂, flushed₂⟩ : ∃ mid,
      (if pass.outcome = .notSent then channelMarkForClose pass.compare taken chan
        else some taken) = some mid ∧ Tracks held mid ∧ ∀ served, Flushed s served 0 taken mid := by
    split
    · rw [channelMarkForClose]
      split
      · exact closeChannel_tracks pass.compare tracks₁ flushed.within chan
      · exact ⟨taken, rfl, tracks₁, fun served => Flushed.refl served flushed.within⟩
    · exact ⟨taken, rfl, tracks₁, fun served => Flushed.refl served flushed.within⟩
  obtain ⟨w', done, tracks₃, flushed₃⟩ :=
    asides_tracks pass.compare pass.asides tracks₂ (flushed₂ chan).within
  have after := (flushed₂ chan).trans (flushed₃ chan)
  refine ⟨w', ?_, tracks₃, flushed.trans after, ?_⟩
  · rw [marked]
    exact done
  · have less := after.fewer
    omega

/-- The passes flush as many cells as they are to, or all there are. -/
theorem flushPasses_tracks (max fuel nFlushed : Nat) (passes : Nat → FlushPass Chan)
    (tracks : Tracks held w) (within : Within s w) (enough : (w.channel chan).numCells ≤ fuel) :
    ∃ n w', flushPasses chan max fuel passes nFlushed w = some (nFlushed + n, w')
      ∧ Tracks held w' ∧ Flushed s chan n w w'
      ∧ (nFlushed + n < max → (w'.channel chan).numCells = 0) := by
  induction fuel generalizing w nFlushed passes with
  | zero => exact ⟨0, w, rfl, tracks, Flushed.refl chan within, fun _ => by omega⟩
  | succ fuel ih =>
    rw [flushPasses]
    split
    · next more =>
      obtain ⟨mid, ran, tracks₁, flushed₁, fewer⟩ :=
        flushPass_tracks chan (passes 0) tracks within (by omega)
      obtain ⟨n, w', rest, tracks₂, flushed₂, drained⟩ := ih (nFlushed + (passes 0).outcome.flushed)
        (fun n => passes (n + 1)) tracks₁ flushed₁.within (by omega)
      refine ⟨(passes 0).outcome.flushed + n, w', ?_, tracks₂, flushed₁.trans flushed₂, ?_⟩
      · rw [ran, ← Nat.add_assoc]
        exact rest
      · rw [← Nat.add_assoc]
        exact drained
    · next done => exact ⟨0, w, rfl, tracks, Flushed.refl chan within, fun less => by omega⟩

/-- If no cell was flushed the channel has none left or is not open. -/
theorem channelFlushSomeCells_tracks {numCells : Nat} (passes : Nat → FlushPass Chan)
    (tracks : Tracks held w) (within : Within s w) (positive : 0 < numCells) :
    ∃ n w', channelFlushSomeCells chan numCells passes w = some (n, w') ∧ Tracks held w'
      ∧ Flushed s chan n w w'
      ∧ (n = 0 → (w'.channel chan).isOpen → (w'.channel chan).numCells = 0) := by
  rw [channelFlushSomeCells, if_neg (by omega)]
  split
  · obtain ⟨n, w', done, tracks', flushed, drained⟩ := flushPasses_tracks chan
      (min numCells maxCellsToGetFromCircuitsForUnlimited) _ 0 passes tracks within (Nat.le_refl _)
    rw [Nat.zero_add] at done drained
    refine ⟨n, w', done, tracks', flushed, ?_⟩
    rintro rfl -
    apply drained
    rw [maxCellsToGetFromCircuitsForUnlimited]
    omega
  · next idle =>
    refine ⟨0, w, rfl, tracks, Flushed.refl chan within, ?_⟩
    intro _ isOpen
    by_contra some_
    exact idle ⟨isOpen, by omega⟩

end

end RendezMix.Guarantees.SchedulerTracking
