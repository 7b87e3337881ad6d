import Mathlib
import RendezMix.Guarantees.OnionQueueCalls
import RendezMix.Library.Runs

/-!
# Runs of the queue of onionskins

What holds of every run: the books are kept, an element arrives at the end of its list and leaves
in one of four ways, each list is handed out in the order of arrival, and neither list starves the
other.
-/
namespace RendezMix.Guarantees.OnionQueues
open Library.Runs Source

/-! ## The books -/

/-- The circuits that the elements are for. -/
def circuitsWaiting (q : OnionQueues) : List Nat :=
  (q.olList 0 ++ q.olList 1 ++ q.olList 2).map OnionQueueElement.circ

structure Bookkept (q : OnionQueues) : Prop where
  counted : ∀ i, q.olEntries i = (q.olList i).length
  /-- No two elements refer to the same circuit. -/
  once : (circuitsWaiting q).Nodup
  /-- A circuit refers to an element exactly when one element refers to it. -/
  waits : ∀ circ old, q.circuits circ = some old →
    (old.onionqueueEntry ≠ none ↔ (circuitsWaiting q).count circ = 1)
  reads : ∀ circ old address, q.circuits circ = some old → old.onionqueueEntry = some address →
    ∃ e, readElement q address = some e ∧ e.circ = circ
  alive : ∀ circ ∈ circuitsWaiting q, ∃ old, q.circuits circ = some old

section Books

variable {q : OnionQueues}

theorem mem_circuitsWaiting (circ : Nat) :
    circ ∈ circuitsWaiting q ↔ ∃ i, ∃ e ∈ q.olList i, e.circ = circ := by
  rw [circuitsWaiting, List.mem_map]
  constructor
  · rintro ⟨e, member, rfl⟩
    simp only [List.mem_append] at member
    rcases member with (first | second) | third
    · exact ⟨0, e, first, rfl⟩
    · exact ⟨1, e, second, rfl⟩
    · exact ⟨2, e, third, rfl⟩
  · rintro ⟨i, e, member, rfl⟩
    refine ⟨e, ?_, rfl⟩
    simp only [List.mem_append]
    match i with
    | 0 => exact Or.inl (Or.inl member)
    | 1 => exact Or.inl (Or.inr member)
    | 2 => exact Or.inr member

theorem Linked.circ_nodup (linked : Linked q) (i : QueueIdx) :
    ((q.olList i).map OnionQueueElement.circ).Nodup := by
  apply List.pairwise_map.mpr
  apply (linked.inOrder i).imp_of_mem
  intro a b first second less same
  rw [linked.single first second same] at less
  omega

theorem Linked.circ_disjoint (linked : Linked q) {i j : QueueIdx} (apart : i ≠ j) :
    ∀ circ ∈ (q.olList i).map OnionQueueElement.circ,
      circ ∉ (q.olList j).map OnionQueueElement.circ := by
  intro circ first second
  obtain ⟨a, inside, rfl⟩ := List.mem_map.mp first
  obtain ⟨b, inside', same⟩ := List.mem_map.mp second
  obtain rfl := linked.single inside' inside same
  exact apart ((linked.placed i b inside).1.symm.trans (linked.placed j b inside').1)

theorem Linked.bookkept (linked : Linked q) : Bookkept q := by
  have once : (circuitsWaiting q).Nodup := by
    rw [circuitsWaiting, List.map_append, List.map_append]
    apply List.Nodup.append
    · apply List.Nodup.append (linked.circ_nodup 0) (linked.circ_nodup 1)
      exact fun circ first second => linked.circ_disjoint (by decide) circ first second
    · exact linked.circ_nodup 2
    · intro circ first second
      rcases List.mem_append.mp first with zero | one
      · exact linked.circ_disjoint (by decide) circ zero second
      · exact linked.circ_disjoint (by decide) circ one second
  constructor
  · exact linked.counted
  · exact once
  · intro circ old live
    constructor
    · intro refers
      obtain ⟨address, entry⟩ := Option.ne_none_iff_exists'.mp refers
      obtain ⟨i, e, member, _, same⟩ := linked.found circ old address live entry
      exact List.count_eq_one_of_mem once ((mem_circuitsWaiting circ).mpr ⟨i, e, member, same⟩)
    · intro one
      have member : circ ∈ circuitsWaiting q := by
        apply List.count_pos_iff.mp
        omega
      obtain ⟨i, e, inside, rfl⟩ := (mem_circuitsWaiting circ).mp member
      obtain ⟨other, there, entry, _⟩ := linked.owned i e inside
      rw [live] at there
      obtain rfl := Option.some.inj there
      rw [entry]
      exact Option.some_ne_none _
  · intro circ old address live entry
    obtain ⟨i, e, member, rfl, same⟩ := linked.found circ old address live entry
    exact ⟨e, readElement_spec linked member, same⟩
  · intro circ member
    obtain ⟨i, e, inside, rfl⟩ := (mem_circuitsWaiting circ).mp member
    obtain ⟨old, live, _⟩ := linked.owned i e inside
    exact ⟨old, live⟩

/-! ## Steps -/

/-- Each call that the code makes finds what it reads. -/
theorem onionStep_moves (linked : Linked q) (ev : OnionEvent) (allowed : Allowed q ev) :
    ∃ q' reply, onionStep q ev = some (q', reply) ∧ Linked q' ∧ Moves q (ev, reply) q' := by
  cases ev with
  | newCircuit circ =>
    refine ⟨_, .done, rfl, ?_, moves_of_lists (fun _ => by simp) rfl rfl rfl⟩
    apply linked.replace
    · intro old live
      rw [show q.circuits circ = none from allowed] at live
      cases live
    · intro circuit same
      rw [← Option.some.inj same]
  | setState circ onionskinPending =>
    obtain ⟨old, live, idle⟩ := allowed
    let new : WaitingCircuit := { old with onionskinPending := onionskinPending }
    have called : onionStep q (.setState circ onionskinPending)
        = some ({ q with circuits := Function.update q.circuits circ (some new) }, .done) := by
      rw [onionStep, updateCircuit, live]
      rfl
    refine ⟨_, .done, called, ?_, moves_of_lists (fun _ => by simp) rfl rfl rfl⟩
    exact linked.update (f := fun old => { old with onionskinPending := onionskinPending }) live rfl
      (fun refers => absurd idle refers)
  | add env circ onionskin =>
    obtain ⟨old, live, pending, idle⟩ := allowed
    exact onionPendingAdd_moves linked env onionskin live pending idle
  | next env => exact onionNextTask_moves linked env
  | remove circ =>
    obtain ⟨old, live⟩ := allowed
    obtain ⟨q', call, linked', moves⟩ := onionPendingRemove_moves linked live
    exact ⟨q', .done, by rw [onionStep, call]; rfl, linked', moves⟩
  | mark circ =>
    obtain ⟨old, live⟩ := allowed
    let new : WaitingCircuit := { old with markedForClose := true }
    have called : onionStep q (.mark circ)
        = some ({ q with circuits := Function.update q.circuits circ (some new) }, .done) := by
      rw [onionStep, circuitMarkWaiting, updateCircuit, live]
      rfl
    refine ⟨_, .done, called, ?_, moves_of_lists (fun _ => by simp) rfl rfl rfl⟩
    exact linked.update (f := fun old => { old with markedForClose := true }) live rfl (fun _ => rfl)
  | free circ =>
    obtain ⟨old, live⟩ := allowed
    obtain ⟨q', call, linked', moves⟩ := circuitFreeWaiting_moves linked live
    exact ⟨q', .done, by rw [onionStep, call]; rfl, linked', moves⟩

theorem OnionStep.moves {q' : OnionQueues} {call : OnionEvent × OnionReply} (linked : Linked q)
    (step : OnionStep q call q') : Linked q' ∧ Moves q call q' := by
  obtain ⟨allowed, called⟩ := step
  obtain ⟨next, reply, called', linked', moves⟩ := onionStep_moves linked call.1 allowed
  obtain ⟨rfl, rfl⟩ := Prod.mk.inj (Option.some.inj (called'.symm.trans called))
  exact ⟨linked', moves⟩

end Books

/-! ## Runs -/

/-- The transitions of a run of the queue. -/
abbrev OnionRun := List (Transition OnionQueues (OnionEvent × OnionReply))

/-- What has been accepted into a list. -/
def acceptedInto (i : QueueIdx) (ts : OnionRun) : List OnionQueueElement :=
  ts.flatMap fun x => arriving x.pre x.input i

/-- What has been handed out of a list. -/
def handedOut (i : QueueIdx) (ts : OnionRun) : List OnionQueueElement :=
  ts.flatMap fun x => handing x.input i

variable {q q' : OnionQueues} {ts : OnionRun}

theorem run_linked (linked : Linked q) (run : Run OnionStep q ts q') : Linked q' :=
  run.invariant linked fun _ _ _ linked step => (OnionStep.moves linked step).1

theorem run_moves (linked : Linked q) (run : Run OnionStep q ts q') :
    ∀ x ∈ ts, Moves x.pre x.input x.post := by
  intro x member
  obtain ⟨before, _⟩ := run.invariant_at linked
    (fun _ _ _ linked step => (OnionStep.moves linked step).1) x member
  exact (OnionStep.moves before (run.step_of_mem x member)).2

/-- What has been handed out and what is left stand in the order of arrival. -/
theorem run_inOrder (run : Run OnionStep emptyOnionQueues ts q) (i : QueueIdx) :
    (handedOut i ts ++ q.olList i).Sublist (acceptedInto i ts)
      ∧ (acceptedInto i ts).Pairwise (fun a b => a.address < b.address)
      ∧ ∀ e ∈ acceptedInto i ts, e.address < q.allocated := by
  induction run with
  | nil => exact ⟨List.Sublist.refl _, List.Pairwise.nil, fun _ member => by cases member⟩
  | @snoc before after ts call run step ih =>
    obtain ⟨sub, ascending, issued⟩ := ih
    obtain ⟨_, moves⟩ := OnionStep.moves (run_linked emptyOnionQueues_linked run) step
    have accepts : acceptedInto i (ts ++ [⟨before, call, after⟩])
        = acceptedInto i ts ++ arriving before call i := by
      simp only [acceptedInto, List.flatMap_append, List.flatMap_singleton]
    have hands : handedOut i (ts ++ [⟨before, call, after⟩]) = handedOut i ts ++ handing call i := by
      simp only [handedOut, List.flatMap_append, List.flatMap_singleton]
    obtain ⟨grows, new⟩ := moves.issued
    have one : (arriving before call i).Pairwise fun a b => a.address < b.address := by
      unfold arriving
      split
      next =>
        simp only
        split
        · exact List.pairwise_singleton _ _
        · exact List.Pairwise.nil
      next => exact List.Pairwise.nil
    refine ⟨?_, ?_, ?_⟩
    · rw [accepts, hands, List.append_assoc]
      have kept := (List.Sublist.refl (handedOut i ts)).append (moves.lists i)
      rw [← List.append_assoc (handedOut i ts) (before.olList i)] at kept
      exact kept.trans (sub.append (List.Sublist.refl _))
    · rw [accepts, List.pairwise_append]
      refine ⟨ascending, one, ?_⟩
      intro a old b arrives
      rw [(new i b arrives).1]
      exact issued a old
    · rw [accepts]
      intro e member
      rcases List.mem_append.mp member with old | arrives
      · exact lt_of_lt_of_le (issued e old) grows
      · exact (new i e arrives).2

/-- Both lists have elements. -/
def BothWaiting (q : OnionQueues) : Prop := q.olList tapQueue ≠ [] ∧ q.olList ntorQueue ≠ []

/-- An ntor handshake is handed out. -/
def handsNtor (x : Transition OnionQueues (OnionEvent × OnionReply)) : Bool :=
  match x.input.2 with
  | .task e => e.queueIdx = ntorQueue
  | _ => false

/-- A stretch of a run in which both lists have elements, the parameter is the same, and no TAP
handshake is handed out. -/
structure BetweenTaps (param : Option Int) (ts : OnionRun) : Prop where
  both : ∀ x ∈ ts, BothWaiting x.pre
  param : ∀ x ∈ ts, ∀ env, x.input.1 = .next env → env.numNtorsPerTapParam = param
  taps : ∀ x ∈ ts, ∀ e, x.input.2 = .task e → e.queueIdx ≠ tapQueue

theorem OnionStep.handsNtor_next {call : OnionEvent × OnionReply} (step : OnionStep q call q')
    (other : ∀ env, call.1 ≠ .next env) : handsNtor ⟨q, call, q'⟩ = false := by
  obtain ⟨ev, reply⟩ := call
  obtain ⟨_, called⟩ := step
  cases ev with
  | next env => exact absurd rfl (other env)
  | newCircuit circ =>
    obtain ⟨_, rfl⟩ := Prod.mk.inj (Option.some.inj called)
    rfl
  | setState circ onionskinPending | remove circ | mark circ | free circ =>
    obtain ⟨_, _, same⟩ := Option.map_eq_some_iff.mp called
    obtain ⟨_, rfl⟩ := Prod.mk.inj same
    rfl
  | add env circ onionskin =>
    obtain ⟨⟨_, added⟩, _, same⟩ := Option.map_eq_some_iff.mp called
    obtain ⟨_, rfl⟩ := Prod.mk.inj same
    cases added <;> rfl

section

variable (linked : Linked q) (run : Run OnionStep q ts q') {param : Option Int}
  (between : BetweenTaps param ts)

include linked run between

theorem betweenTaps_turns :
    (ts.countP handsNtor : Int) = q'.recentlyChosenNtors - q.recentlyChosenNtors
      ∧ (0 < ts.countP handsNtor →
        q'.recentlyChosenNtors ≤ networkstatusGetParam param 10 1 100000) := by
  induction run with
  | nil => simp
  | @snoc before after ts call run step ih =>
    obtain ⟨both, same, taps⟩ := between
    have earlier : BetweenTaps param ts :=
      ⟨fun x member => both x (List.mem_append_left _ member),
        fun x member => same x (List.mem_append_left _ member),
        fun x member => taps x (List.mem_append_left _ member)⟩
    obtain ⟨count, bound⟩ := ih earlier
    have last : (⟨before, call, after⟩ : Transition OnionQueues (OnionEvent × OnionReply))
        ∈ ts ++ [⟨before, call, after⟩] := by simp
    obtain ⟨_, moves⟩ := OnionStep.moves (run_linked linked run) step
    rw [List.countP_append, List.countP_singleton]
    by_cases next : ∃ env, call.1 = .next env
    · obtain ⟨env, next⟩ := next
      obtain ⟨tapWaits, ntorWaits⟩ := both _ last
      obtain ⟨e, task, turn⟩ := moves.turn env next tapWaits ntorWaits
      obtain ⟨ntor, grows, limit⟩ := turn.resolve_right (taps _ last e task)
      have hands : handsNtor ⟨before, call, after⟩ = true := by
        rw [handsNtor]
        simp only [task, ntor, decide_true]
      rw [numNtorsPerTap, same _ last env next] at limit
      rw [if_pos hands]
      refine ⟨?_, fun _ => limit⟩
      push_cast
      omega
    · have other : ∀ env, call.1 ≠ .next env := fun env equal => next ⟨env, equal⟩
      have hands : ¬ handsNtor ⟨before, call, after⟩ = true := by
        rw [OnionStep.handsNtor_next step other]
        exact Bool.false_ne_true
      rw [if_neg hands, moves.others other]
      exact ⟨by simpa using count, by simpa using bound⟩

theorem betweenTaps_le : (ts.countP handsNtor : Int) ≤ networkstatusGetParam param 10 1 100000 := by
  obtain ⟨count, bound⟩ := betweenTaps_turns linked run between
  have turns := linked.turns
  rcases Nat.eq_zero_or_pos (ts.countP handsNtor) with zero | positive
  · have range := (networkstatusGetParam_range param 10
      (show (1 : Int) ≤ 100000 by decide)).1
    rw [zero]
    exact le_trans (by decide) range
  · have limit := bound positive
    omega

end

/-- In every run the books are kept and each call finds what it reads; a refused add changes
nothing, and nothing is handed out only when no TAP and no ntor handshake waits; what is accepted
leaves in one of the ways of `Leaves`; each list is handed out in the order of arrival; and in any
stretch in which both lists have elements and no TAP handshake is handed out, no more than
`NumNTorsPerTAP` ntor handshakes are. -/
theorem onionRun_keeps (run : Run OnionStep emptyOnionQueues ts q) :
    Bookkept q
      ∧ (∀ ev, Allowed q ev → ∃ q' reply, OnionStep q (ev, reply) q')
      ∧ (∀ x ∈ ts, x.input.2 = .refused → x.post = x.pre)
      ∧ (∀ x ∈ ts, x.input.2 = .idle → x.pre.olList tapQueue = [] ∧ x.pre.olList ntorQueue = [])
      ∧ (∀ x ∈ ts, ∀ i, ∀ e ∈ x.pre.olList i ++ arriving x.pre x.input i,
        e ∈ x.post.olList i ∨ Leaves x.input x.post e)
      ∧ (∀ i, (handedOut i ts ++ q.olList i).Sublist (acceptedInto i ts)
        ∧ (acceptedInto i ts).Pairwise fun a b => a.address < b.address)
      ∧ ∀ param stretch q', Run OnionStep q stretch q' → BetweenTaps param stretch →
        (stretch.countP handsNtor : Int) ≤ networkstatusGetParam param 10 1 100000 := by
  have linked := run_linked emptyOnionQueues_linked run
  have moves := run_moves emptyOnionQueues_linked run
  refine ⟨linked.bookkept, ?_, ?_, ?_, ?_, ?_, ?_⟩
  · intro ev allowed
    obtain ⟨q', reply, called, _⟩ := onionStep_moves linked ev allowed
    exact ⟨q', reply, allowed, called⟩
  · exact fun x member => (moves x member).refused
  · exact fun x member => (moves x member).idle
  · exact fun x member => (moves x member).leaves
  · intro i
    obtain ⟨sub, ascending, _⟩ := run_inOrder run i
    exact ⟨sub, ascending⟩
  · exact fun param stretch q' more between => betweenTaps_le linked more between

def ntorSkin : CreateCell := createCellInit cellCreate2 onionHandshakeTypeNtor 0 []

def idleEnv : OnionEnv := ⟨0, none, 1, 1750, fun _ => 0, fun _ => 0⟩

def madeQueues : OnionQueues :=
  { emptyOnionQueues with
    circuits := Function.update emptyOnionQueues.circuits 1 (some ⟨false, false, none⟩) }

def pendingQueues : OnionQueues :=
  { madeQueues with circuits := Function.update madeQueues.circuits 1 (some ⟨true, false, none⟩) }

def queuedOne : OnionQueues :=
  inserted (newElement 0 1 ntorSkin pendingQueues) ⟨true, false, none⟩ pendingQueues

/-- A circuit is made, and its handshake waits. -/
theorem onionRun_keeps_one : ∃ ts, Run OnionStep emptyOnionQueues ts queuedOne ∧ ts.length = 3
    ∧ Bookkept queuedOne := by
  have made : OnionStep emptyOnionQueues (.newCircuit 1, .done) madeQueues := ⟨rfl, rfl⟩
  have pending : OnionStep madeQueues (.setState 1 true, .done) pendingQueues :=
    ⟨⟨⟨false, false, none⟩, rfl, rfl⟩, rfl⟩
  have queued : OnionStep pendingQueues (.add idleEnv 1 ntorSkin, .accepted) queuedOne :=
    ⟨⟨⟨true, false, none⟩, rfl, rfl, rfl⟩, rfl⟩
  have run := ((Run.single made).snoc pending).snoc queued
  exact ⟨_, run, rfl, (onionRun_keeps run).1⟩

end RendezMix.Guarantees.OnionQueues
