import RendezMix.Guarantees.TimerOwnership

/-!
# Ready times are ordered and kept

Each delay is added to the previous ready time of the direction, or to the time
of day if that is later, so ready times never decrease. The callback releases the
first cell without a look at its ready time; it may, because the timer was armed
for the cell that is first in the queue when it fires.
-/
namespace RendezMix.Guarantees
open Source Library.Runs Timeval

/-! ## Generated times -/

theorem delayMicrosec_clipped (x : ℚ) : 0 ≤ if x < 0 then 0 else x := by
  split
  · exact le_rfl
  · next nonneg => exact not_lt.mp nonneg

theorem normal_of_micros (x : ℚ) :
    (⟨(x / 1000000).floor, (x - (x / 1000000).floor * 1000000).floor⟩ : Timeval).Normal := by
  have low : ((x / 1000000).floor : ℚ) ≤ x / 1000000 := Int.floor_le (x / 1000000)
  have high : x / 1000000 < (x / 1000000).floor + 1 := Int.lt_floor_add_one (x / 1000000)
  have nonneg : 0 ≤ x - (x / 1000000).floor * 1000000 := by linarith
  have below : x - (x / 1000000).floor * 1000000 < (1000000 : ℤ) := by
    push_cast
    linarith
  rw [normal_iff]
  have nonneg' : 0 ≤ ⌊x - (x / 1000000).floor * 1000000⌋ := Int.floor_nonneg.mpr nonneg
  have below' : ⌊x - (x / 1000000).floor * 1000000⌋ < 1000000 := Int.floor_lt.mpr below
  exact ⟨nonneg', below'⟩

variable (cfg : Config) {side : DelaySide} (circ : Circuit)

theorem normal_getDelayTimeval (sample : ℚ) : (getDelayTimeval cfg circ sample).Normal :=
  normal_of_micros _

theorem micros_getDelayTimeval_nonneg (sample : ℚ) :
    0 ≤ (getDelayTimeval cfg circ sample).micros := by
  have usec := ((normal_iff _).mp (normal_getDelayTimeval cfg circ sample)).1
  have sec : 0 ≤ (getDelayTimeval cfg circ sample).tvSec := by
    refine Int.floor_nonneg.mpr (div_nonneg (delayMicrosec_clipped _) ?_)
    norm_num
  rw [micros_eq]
  omega

section

variable (d : CellDirection) (now : ClockReading) (sample : ℚ)
  (last : (circ.hop d).lastReadyTv.Normal)

include last

theorem normal_getReadyTimeval : (getReadyTimeval cfg circ d now sample).Normal := by
  refine normal_timeradd _ _ ?_ (normal_getDelayTimeval cfg circ sample)
  split
  · exact now.property
  · exact last

theorem micros_getReadyTimeval_ge :
    (circ.hop d).lastReadyTv.micros ≤ (getReadyTimeval cfg circ d now sample).micros := by
  have delay := micros_getDelayTimeval_nonneg cfg circ sample
  have base : (circ.hop d).lastReadyTv.micros ≤
      (if (circ.hop d).lastReadyTv.before now.val then now.val
        else (circ.hop d).lastReadyTv).micros := by
    split
    · next earlier => exact ((before_iff_micros _ _ last now.property).mp earlier).le
    · exact le_rfl
  unfold getReadyTimeval
  dsimp only
  rw [micros_timeradd]
  omega

end

theorem micros_timerDelay (readyTv now : Timeval) (ready : readyTv.Normal) (reading : now.Normal) :
    readyTv.micros ≤ now.micros + (timerDelay readyTv now).micros := by
  unfold timerDelay
  dsimp only
  split
  · next past =>
    have usec := ((normal_iff _).mp (normal_timersub readyTv now ready reading)).1
    have negative : (timersub readyTv now).tvSec < 0 := past.resolve_right (by omega)
    have earlier := (timersub_sec_neg_iff readyTv now ready reading).mp negative
    have zero : (⟨0, 0⟩ : Timeval).micros = 0 := rfl
    omega
  · rw [micros_timersub]
    omega

theorem releaseLoop_ready (now : Timeval) (i : Nat) (queue : CellQueue) (later : i ≠ 0)
    (cell : PackedCell) (member : cell ∈ (releaseLoop now i queue).1) :
    ¬ now.before cell.readyTv := by
  induction queue generalizing i with
  | nil => cases member
  | cons first rest ih =>
    rw [releaseLoop] at member
    split at member
    · next moved =>
      rcases List.mem_cons.mp member with isFirst | inRest
      · rw [isFirst]
        exact fun early => moved.2 ⟨later, early⟩
      · exact ih (i + 1) (Nat.succ_ne_zero i) inRest
    · cases member

theorem releaseLoop_cons (now : Timeval) (first : PackedCell) (rest : CellQueue) :
    (releaseLoop now 0 (first :: rest)).1 = first :: (releaseLoop now 1 rest).1 := by
  rw [releaseLoop, if_pos (by simp)]

/-! ## Order -/

/-- The ready times of a direction: well formed, in order, and up to the last. -/
structure InOrder (side : DelaySide) : Prop where
  lastNormal : side.last.Normal
  normal : ∀ cell ∈ side.queue, cell.readyTv.Normal
  sorted : side.queue.Pairwise (fun a b => a.readyTv.micros ≤ b.readyTv.micros)
  bounded : ∀ cell ∈ side.queue, cell.readyTv.micros ≤ side.last.micros

section

variable (order : InOrder side)

include order

theorem InOrder.schedule (now : ClockReading) (t : TimerPtr) : InOrder (side.schedule now t) := by
  unfold DelaySide.schedule
  split
  · exact order
  · exact ⟨order.lastNormal, order.normal, order.sorted, order.bounded⟩

theorem InOrder.enqueue (copy : PackedCell) (normal : copy.readyTv.Normal)
    (later : side.last.micros ≤ copy.readyTv.micros) : InOrder (side.enqueue copy) := by
  have below : ∀ cell ∈ side.queue, cell.readyTv.micros ≤ copy.readyTv.micros :=
    fun cell member => (order.bounded cell member).trans later
  refine ⟨normal, ?_, ?_, ?_⟩
  · intro cell member
    rcases List.mem_append.mp member with old | new
    · exact order.normal cell old
    · rw [List.mem_singleton.mp new]
      exact normal
  · refine List.pairwise_append.mpr ⟨order.sorted, List.pairwise_singleton _ _, ?_⟩
    intro cell member new isNew
    rw [List.mem_singleton.mp isNew]
    exact below cell member
  · intro cell member
    rcases List.mem_append.mp member with old | new
    · exact below cell old
    · rw [List.mem_singleton.mp new]
      exact le_rfl

theorem InOrder.release (now : Timeval) : InOrder (side.release now) := by
  have split := releaseLoop_split now 0 side.queue
  have still : ∀ cell ∈ (releaseLoop now 0 side.queue).2, cell ∈ side.queue := by
    intro cell member
    rw [split]
    exact List.mem_append_right _ member
  refine ⟨order.lastNormal, fun cell member => order.normal cell (still cell member), ?_,
    fun cell member => order.bounded cell (still cell member)⟩
  have sorted := order.sorted
  rw [split] at sorted
  exact (List.pairwise_append.mp sorted).2.1

end

theorem lifeStep_inOrder (r : Relay) (op : Op) (c : CircPtr) (life final : Life)
    (step : LifeStep cfg r op c life final) (order : ∀ d, InOrder (sideOf c d life))
    (d : CellDirection) : InOrder (sideOf c d final) := by
  have change := lifeStep_delay cfg r op c life final step d
  have before := order d
  generalize sideOf c d final = side at change
  cases change with
  | same => exact before
  | enqueue chan cell fromstream env copy t isOp first isOpen delayed ready =>
    have enqueued := before.enqueue copy
      (by rw [ready]; exact normal_getReadyTimeval cfg life.circ d _ _ before.lastNormal)
      (by rw [ready]; exact micros_getReadyTimeval_ge cfg life.circ d _ _ before.lastNormal)
    split
    · exact enqueued.schedule env.scheduleNow t
    · exact enqueued
  | gone => exact ⟨before.lastNormal, before.normal, before.sorted, before.bounded⟩
  | release t next now scheduleNow armed isOp fires first isOpen isOr =>
    exact (before.release now.val).schedule scheduleNow next
  | clear marked =>
    exact ⟨before.lastNormal, fun _ member => (List.not_mem_nil member).elim, List.Pairwise.nil,
      fun _ member => (List.not_mem_nil member).elim⟩

section

variable {r : Relay} (x : Transition Relay Op) {ts : List (Transition Relay Op)}

theorem inOrder_created (op : Op) (circ : Circuit) (created : Created cfg op circ) (c : CircPtr)
    (d : CellDirection) : InOrder (sideOf c d ⟨[], circ⟩) := by
  obtain ⟨chan, circId, fresh⟩ := created_hop cfg op circ created d
  refine ⟨?_, ?_, ?_, ?_⟩
  all_goals simp only [sideOf, fresh, Hop.init]
  · decide
  · simp
  · simp
  · simp

theorem run_inOrder {cfg : Config} (run : RelayRun cfg ts r) :
    ∀ c life, lifeOf r c = some life → ∀ d, InOrder (sideOf c d life) :=
  run_life run (fun c op circ created => inOrder_created cfg op circ created c)
    (fun x _ c life final step order => lifeStep_inOrder cfg x.pre x.input c life final step order)

/-! ## No early release -/

/-- The timer that a step fires: what it was armed with, and the time it fires. -/
def firedArmed (r : Relay) : Op → Option (Armed × Timeval)
  | .fire t now _ => (r.timers t).bind (fun timer => timer.pending.map (fun armed => (armed, now.val)))
  | _ => none

/-- A timer that the step fires fires no earlier than the delay it was armed with. -/
def Punctual (x : Transition Relay Op) : Prop :=
  ∀ fired ∈ firedArmed x.pre x.input,
    fired.1.armedAt.micros + fired.1.delay.micros ≤ fired.2.micros

instance (x : Transition Relay Op) : Decidable (Punctual x) :=
  inferInstanceAs (Decidable (∀ _ ∈ _, _))

/-- The timer of an open circuit is armed for the first cell of the queue. -/
def ArmedForHead (side : DelaySide) : Prop :=
  side.timer ≠ none → ∃ first rest armed, side.queue = first :: rest ∧ side.armed = some armed ∧
    first.readyTv.micros ≤ armed.armedAt.micros + armed.delay.micros

/-- Every cell was released at or after its ready time. -/
def OnTime (side : DelaySide) : Prop :=
  ∀ release ∈ side.released, ¬ release.1.before release.2.readyTv

theorem InOrder.armedForHead_schedule (order : InOrder side) (now : ClockReading) (t : TimerPtr)
    (noTimer : side.timer = none) : ArmedForHead (side.schedule now t) := by
  unfold DelaySide.schedule ArmedForHead
  split
  · exact fun has => absurd noTimer has
  · next first rest head =>
    intro _
    have normal := order.normal first (by rw [head]; exact List.mem_cons_self)
    exact ⟨first, rest, _, head, rfl, micros_timerDelay first.readyTv now.val normal now.property⟩

theorem ArmedForHead.enqueue (armed : ArmedForHead side) (copy : PackedCell) :
    ArmedForHead (side.enqueue copy) := by
  intro has
  obtain ⟨first, rest, payload, head, last, ready⟩ := armed has
  exact ⟨first, rest ++ [copy], payload, by simp [DelaySide.enqueue, head], last, ready⟩

theorem onTime_schedule (onTime : OnTime side) (now : ClockReading) (t : TimerPtr) :
    OnTime (side.schedule now t) := by
  unfold DelaySide.schedule
  split
  · exact onTime
  · exact onTime

theorem onTime_release (onTime : OnTime side) (order : InOrder side) (now : ClockReading)
    (first : PackedCell) (rest : CellQueue) (head : side.queue = first :: rest)
    (ready : first.readyTv.micros ≤ now.val.micros) : OnTime (side.release now.val) := by
  intro release member
  rcases List.mem_append.mp member with old | new
  · exact onTime release old
  · obtain ⟨cell, moved, rfl⟩ := List.mem_map.mp new
    rw [head, releaseLoop_cons] at moved
    rcases List.mem_cons.mp moved with isFirst | inRest
    · rw [isFirst]
      have normal := order.normal first (by rw [head]; exact List.mem_cons_self)
      exact (not_before_iff_micros _ _ now.property normal).mpr ready
    · exact releaseLoop_ready now.val 1 rest one_ne_zero cell inRest

/-- The invariant behind punctual releases. -/
structure Timely (c : CircPtr) (life : Life) : Prop where
  order : ∀ d, InOrder (sideOf c d life)
  armed : life.circ.markedForClose = false → ∀ d, ArmedForHead (sideOf c d life)
  onTime : ∀ d, OnTime (sideOf c d life)

section

variable (sane : Sane x.pre) (punctual : Punctual x) (c : CircPtr)

include sane punctual

/-- The deadline of the timer that fires has passed for the first cell. -/
theorem head_ready (d : CellDirection) (t : TimerPtr) (now scheduleNow : ClockReading)
    (armed : Armed) (isOp : x.input = .fire t now scheduleNow) (fires : Fires x.pre c d t armed)
    (life : Life) (first : lifeOf x.pre c = some life) (isOpen : life.circ.markedForClose = false)
    (timely : Timely c life) :
    ∃ cell rest, (sideOf c d life).queue = cell :: rest ∧
      cell.readyTv.micros ≤ now.val.micros := by
  obtain ⟨has, last⟩ := sane.fires c d t armed fires life first
  obtain ⟨cell, rest, payload, head, lastArmed, ready⟩ :=
    timely.armed isOpen d (by rw [sideOf, has]; simp)
  obtain rfl : payload = armed := Option.some.inj (lastArmed.symm.trans last)
  obtain ⟨arg, timer, _⟩ := fires.timer
  have deadline := punctual (payload, now.val) (by simp [isOp, firedArmed, timer])
  exact ⟨cell, rest, head, ready.trans deadline⟩

theorem lifeStep_timely (life final : Life) (step : LifeStep cfg x.pre x.input c life final)
    (timely : Timely c life) : Timely c final := by
  have keeps := lifeStep_keeps cfg x.pre x.input c life final step
  have order := lifeStep_inOrder cfg x.pre x.input c life final step timely.order
  have both : ∀ d, (final.circ.markedForClose = false → ArmedForHead (sideOf c d final)) ∧
      OnTime (sideOf c d final) := by
    intro d
    have change := lifeStep_delay cfg x.pre x.input c life final step d
    have onTime := timely.onTime d
    have after := order d
    generalize sideOf c d final = side at change after
    cases change with
    | same => exact ⟨fun isOpen => timely.armed (keeps.isOpen isOpen) d, onTime⟩
    | enqueue chan cell fromstream env copy t isOp first isOpen delayed ready =>
      split at after
      · next noTimer =>
        rw [if_pos noTimer]
        have enqueued : OnTime ((sideOf c d life).enqueue copy) := onTime
        refine ⟨fun _ => ?_, onTime_schedule enqueued env.scheduleNow t⟩
        have before := (timely.order d).enqueue copy
          (by rw [ready]; exact normal_getReadyTimeval cfg _ d _ _ (timely.order d).lastNormal)
          (by rw [ready]; exact micros_getReadyTimeval_ge cfg _ d _ _ (timely.order d).lastNormal)
        exact before.armedForHead_schedule env.scheduleNow t noTimer
      · next hasTimer =>
        rw [if_neg hasTimer]
        exact ⟨fun _ => (timely.armed isOpen d).enqueue copy, onTime⟩
    | gone | clear marked => exact ⟨fun _ has => absurd rfl has, onTime⟩
    | release t next now scheduleNow armed isOp fires first isOpen isOr =>
      obtain ⟨cell, rest, head, ready⟩ :=
        head_ready x sane punctual c d t now scheduleNow armed isOp fires life first isOpen timely
      refine ⟨fun _ => ?_, onTime_schedule
        (onTime_release onTime (timely.order d) now cell rest head ready) scheduleNow next⟩
      exact ((timely.order d).release now.val).armedForHead_schedule scheduleNow next rfl
  exact ⟨order, fun isOpen d => (both d).1 isOpen, fun d => (both d).2⟩

end

theorem run_timely {cfg : Config} (run : RelayRun cfg ts r) (punctual : ∀ x ∈ ts, Punctual x) :
    ∀ c life, lifeOf r c = some life → Timely c life := by
  refine run_life run (fun c op circ created => ?_) (fun x member c life final step timely => ?_)
  · refine ⟨inOrder_created cfg op circ created c, fun _ d has => ?_, fun d release member => ?_⟩
    · obtain ⟨chan, circId, fresh⟩ := created_hop cfg op circ created d
      simp [sideOf, fresh, Hop.init] at has
    · simp [sideOf, releasedOf] at member
  · exact lifeStep_timely cfg x (run_orderly_at run x member).1.sane (punctual x member) c life
      final step timely

theorem mem_releasedOf (c : CircPtr) (d : CellDirection) (chan : ChanPtr) (circId : UInt32)
    (now : Timeval) (cell : PackedCell) (log : List Event)
    (member : Event.released c d chan circId now cell ∈ log) :
    (now, cell) ∈ releasedOf c d (history c log) := by
  refine List.mem_filterMap.mpr ⟨_, List.mem_filter.mpr ⟨member, ?_⟩, ?_⟩
  · simp [eventCircuit]
  · simp [releasedBy]

end

end RendezMix.Guarantees
