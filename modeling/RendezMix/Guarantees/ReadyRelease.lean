import RendezMix.Guarantees.ReadyTimes

/-!
# The ready cells of a delay queue

The loop of the callback counts its rounds up to the length of the queue that it takes the cells
from, so it stops half way: of `n` cells it takes `(n + 1) / 2` at most, ready or not. It takes all
that are ready exactly if they are no more than that.
-/
namespace RendezMix.Guarantees
open Source

/-! ## Ready cells -/

/-- The ready time of a cell has come. -/
def Ready (now : Timeval) (cell : PackedCell) : Prop := ¬ now.before cell.readyTv

instance (now : Timeval) (cell : PackedCell) : Decidable (Ready now cell) :=
  inferInstanceAs (Decidable (¬ _))

/-- The ready times of a queue do not decrease. -/
def ReadyOrder (queue : CellQueue) : Prop :=
  queue.Pairwise fun a b => ¬ b.readyTv.before a.readyTv

instance (queue : CellQueue) : Decidable (ReadyOrder queue) :=
  inferInstanceAs (Decidable (List.Pairwise _ _))

/-- The cells of a queue that are ready. -/
def readyOf (now : Timeval) (queue : CellQueue) : CellQueue := queue.filter (Ready now)

section

variable {rest queue : CellQueue} {cell : PackedCell} {now : Timeval}

theorem Ready.of_later {a b : PackedCell} (ready : Ready now b)
    (order : ¬ b.readyTv.before a.readyTv) : Ready now a := by
  unfold Ready Timeval.before at *
  omega

theorem readyOf_cons_of_not (order : ReadyOrder (cell :: rest)) (unready : ¬ Ready now cell) :
    readyOf now (cell :: rest) = [] := by
  apply List.filter_eq_nil_iff.mpr
  intro other member ready
  rcases List.mem_cons.mp member with rfl | later
  · exact unready (of_decide_eq_true ready)
  · exact unready ((of_decide_eq_true ready).of_later ((List.pairwise_cons.mp order).1 other later))

theorem readyOf_cons_of_ready (ready : Ready now cell) :
    readyOf now (cell :: rest) = cell :: readyOf now rest :=
  List.filter_cons_of_pos (decide_eq_true ready)

theorem readyOf_eq_take (order : ReadyOrder queue) :
    readyOf now queue = queue.take (readyOf now queue).length := by
  induction queue with
  | nil => rfl
  | cons cell rest ih =>
    by_cases ready : Ready now cell
    · rw [readyOf_cons_of_ready ready, List.length_cons, List.take_succ_cons,
        ← ih (List.pairwise_cons.mp order).2]
    · rw [readyOf_cons_of_not order ready]
      rfl

theorem not_ready_of_drop (order : ReadyOrder queue) :
    ∀ cell ∈ queue.drop (readyOf now queue).length, now.before cell.readyTv := by
  induction queue with
  | nil => exact fun cell member => absurd member List.not_mem_nil
  | cons cell rest ih =>
    by_cases ready : Ready now cell
    · rw [readyOf_cons_of_ready ready, List.length_cons, List.drop_succ_cons]
      exact ih (List.pairwise_cons.mp order).2
    · have none := readyOf_cons_of_not order ready
      rw [none]
      intro other member
      by_contra early
      exact List.filter_eq_nil_iff.mp none other member (decide_eq_true early)

/-! ## The loop -/

/-- The number of cells that the loop takes from round `i` on. -/
def released (now : Timeval) (i : Nat) (queue : CellQueue) : Nat :=
  min (readyOf now queue).length ((queue.length - i + 1) / 2)

theorem releaseLoop_eq (now : Timeval) (i : Nat) (queue : CellQueue) (order : ReadyOrder queue)
    (first : i = 0 → ∀ cell ∈ queue.head?, Ready now cell) :
    releaseLoop now i queue =
      (queue.take (released now i queue), queue.drop (released now i queue)) := by
  induction queue generalizing i with
  | nil => rfl
  | cons cell rest ih =>
    rw [releaseLoop]
    by_cases ready : Ready now cell
    · by_cases inside : i < (cell :: rest).length
      · have next : released now i (cell :: rest) = released now (i + 1) rest + 1 := by
          unfold released
          rw [readyOf_cons_of_ready ready, List.length_cons, List.length_cons]
          rw [List.length_cons] at inside
          omega
        rw [if_pos ⟨inside, fun late => ready late.2⟩, next, List.take_succ_cons,
          List.drop_succ_cons,
          ih (i + 1) (List.pairwise_cons.mp order).2 fun zero => absurd zero (Nat.succ_ne_zero i)]
      · have none : released now i (cell :: rest) = 0 := by
          unfold released
          omega
        rw [if_neg fun taken => inside taken.1, none]
        rfl
    · have later : i ≠ 0 := fun zero => ready (first zero cell rfl)
      have none : released now i (cell :: rest) = 0 := by
        unfold released
        rw [readyOf_cons_of_not order ready]
        exact Nat.zero_min _
      rw [if_neg fun taken => taken.2 ⟨later, not_not.mp ready⟩, none]
      rfl

/-! ## The callback -/

/-- In the circuit after a callback, the ready cells of `before` have been moved to the channel
queue, and those that are left are not ready. -/
def ReleasesReady (now : Timeval) (before : Hop) (c : CircPtr) (d : CellDirection) (after : Relay) :
    Prop :=
  ∃ circ ∈ after.circuits c,
    (circ.hop d).chanCells = before.chanCells ++ readyOf now before.delayQueue ∧
    ∀ cell ∈ (circ.hop d).delayQueue, now.before cell.readyTv

instance (now : Timeval) (before : Hop) (c : CircPtr) (d : CellDirection) (after : Relay) :
    Decidable (ReleasesReady now before c d after) :=
  inferInstanceAs (Decidable (∃ _ ∈ _, _ ∧ ∀ _ ∈ _, _))

/-- The queues of a circuit after its callback. -/
theorem cellReadyCallback_hop (c : CircPtr) (d : CellDirection) (chan : ChanPtr) (arg : InfoPtr)
    (now scheduleNow : ClockReading) (r : Relay) (circ : Circuit)
    (info : r.delayInfos arg = some ⟨c, d⟩) (live : r.circuits c = some circ)
    (isOpen : circ.markedForClose = false) (isOr : circ.magic = .orCircuit)
    (hasChan : (circ.hop d).chan = some chan) :
    ∃ after, (cellReadyCallback arg now scheduleNow r).circuits c = some after ∧
      (after.hop d).chanCells = (circ.hop d).chanCells ++ (circ.hop d).readyCells now.val ∧
      (after.hop d).delayQueue = (releaseLoop now.val 0 (circ.hop d).delayQueue).2 := by
  have life : lifeOf r c = some ⟨history c r.log, circ⟩ :=
    (lifeOf_eq_some r c _).mpr ⟨live, rfl⟩
  obtain ⟨next, rewrites⟩ := cellReadyCallback_release c d chan arg now scheduleNow r _ _ info life
    isOpen isOr hasChan rfl
  refine ⟨_, live_of_lifeOf rewrites.own, ?_⟩
  unfold Life.schedule
  split
  · simp only [Life.setHop, Life.record, Circuit.hop_setHop, Hop.releaseReady, and_self]
  · simp only [Life.setHop, Life.record, Circuit.hop_setHop, Hop.releaseReady, and_self]

/-- A callback that finds its first cell ready releases every ready cell exactly if these are no more
than half of the queue, rounded up. -/
theorem cellReadyCallback_releasesReady_iff (c : CircPtr) (d : CellDirection) (chan : ChanPtr)
    (arg : InfoPtr) (now scheduleNow : ClockReading) (r : Relay) (circ : Circuit)
    (info : r.delayInfos arg = some ⟨c, d⟩) (live : r.circuits c = some circ)
    (isOpen : circ.markedForClose = false) (isOr : circ.magic = .orCircuit)
    (hasChan : (circ.hop d).chan = some chan) (order : ReadyOrder (circ.hop d).delayQueue)
    (head : ∃ cell ∈ (circ.hop d).delayQueue.head?, Ready now.val cell) :
    ReleasesReady now.val (circ.hop d) c d (cellReadyCallback arg now scheduleNow r) ↔
      2 * (readyOf now.val (circ.hop d).delayQueue).length ≤
        (circ.hop d).delayQueue.length + 1 := by
  obtain ⟨after, afterEq, cells, queue⟩ :=
    cellReadyCallback_hop c d chan arg now scheduleNow r circ info live isOpen isOr hasChan
  have loop := releaseLoop_eq now.val 0 (circ.hop d).delayQueue order (by
    intro _ cell member
    obtain ⟨first, isFirst, ready⟩ := head
    rw [Option.mem_def] at member isFirst
    rw [isFirst, Option.some.injEq] at member
    rw [← member]
    exact ready)
  unfold Hop.readyCells at cells
  rw [loop] at cells queue
  have half : released now.val 0 (circ.hop d).delayQueue =
        (readyOf now.val (circ.hop d).delayQueue).length ↔
      2 * (readyOf now.val (circ.hop d).delayQueue).length ≤
        (circ.hop d).delayQueue.length + 1 := by
    unfold released
    omega
  rw [← half]
  constructor
  · rintro ⟨found, isFound, moved, _⟩
    rw [Option.mem_def, afterEq, Option.some.injEq] at isFound
    subst isFound
    rw [cells, List.append_cancel_left_eq] at moved
    have lengths := congrArg List.length moved
    rw [List.length_take] at lengths
    have short : released now.val 0 (circ.hop d).delayQueue ≤ (circ.hop d).delayQueue.length := by
      unfold released
      omega
    omega
  · intro all
    refine ⟨after, afterEq, ?_, ?_⟩
    · rw [cells, all, ← readyOf_eq_take order]
    · rw [queue, all]
      exact not_ready_of_drop order

/-- Two cells with ready times 5000 and 10000. -/
def twoDelayed : Relay := sampleRelay sampleConfig (delayedCells.take 4)

/-- The circuit that they are on. -/
def twoDelayedCircuit : Circuit := (twoDelayed.circuits 0).getD (originCircuitNew false 0)

/-- On time, the callback releases the first of them. -/
theorem cellReadyCallback_releasesReady_iff_first :
    ReleasesReady ⟨0, 5000⟩ (twoDelayedCircuit.hop .outbound) 0 .outbound
        (cellReadyCallback 2 (clockAt 5000) (clockAt 5000) twoDelayed) ↔
      2 * (readyOf ⟨0, 5000⟩ (twoDelayedCircuit.hop .outbound).delayQueue).length ≤
        (twoDelayedCircuit.hop .outbound).delayQueue.length + 1 :=
  cellReadyCallback_releasesReady_iff 0 .outbound 2 2 (clockAt 5000) (clockAt 5000) twoDelayed
    twoDelayedCircuit (by decide +kernel) (by decide +kernel) (by decide +kernel)
    (by decide +kernel) (by decide +kernel) (by decide +kernel) (by decide +kernel)

/-- A callback that is late finds both of them ready, and releases one. -/
theorem cellReadyCallback_keeps_second :
    (∀ cell ∈ (twoDelayedCircuit.hop .outbound).delayQueue, Ready ⟨0, 10000⟩ cell) ∧
      ¬ ReleasesReady ⟨0, 10000⟩ (twoDelayedCircuit.hop .outbound) 0 .outbound
        (cellReadyCallback 2 (clockAt 10000) (clockAt 10000) twoDelayed) := by
  constructor
  · decide +kernel
  · decide +kernel

end

end RendezMix.Guarantees
