import RendezMix.Library.KeyedLists
import RendezMix.Source.OnionQueue

/-!
# Elements, counters and circuits

What the queue of onionskins keeps: the counters are the lengths of the lists, and an element and
the circuit that it is for refer to each other. The four ways by which an element leaves the queue
do the same to these, which is stated once as the queues `without` the element.
-/
namespace RendezMix.Guarantees.OnionQueues
open Source

structure Linked (q : OnionQueues) : Prop where
  counted : ∀ i, q.olEntries i = (q.olList i).length
  placed : ∀ i, ∀ e ∈ q.olList i, e.queueIdx = i ∧ e.onionskin.isSome = true
  owned : ∀ i, ∀ e ∈ q.olList i, ∃ old, q.circuits e.circ = some old
    ∧ old.onionqueueEntry = some e.address ∧ old.onionskinPending = true
  found : ∀ circ old address, q.circuits circ = some old → old.onionqueueEntry = some address →
    ∃ i, ∃ e ∈ q.olList i, e.address = address ∧ e.circ = circ
  inOrder : ∀ i, (q.olList i).Pairwise fun a b => a.address < b.address
  apart : ∀ i j, ∀ a ∈ q.olList i, ∀ b ∈ q.olList j, a.address = b.address → a = b
  issued : ∀ i, ∀ e ∈ q.olList i, e.address < q.allocated
  turns : 0 ≤ q.recentlyChosenNtors

theorem emptyOnionQueues_linked : Linked emptyOnionQueues := by
  constructor <;> simp [emptyOnionQueues]

theorem Linked.single {q : OnionQueues} (linked : Linked q) {i j : QueueIdx}
    {a b : OnionQueueElement} (first : a ∈ q.olList i) (second : b ∈ q.olList j)
    (same : a.circ = b.circ) : a = b := by
  obtain ⟨old, live, entry, _⟩ := linked.owned i a first
  obtain ⟨old', live', entry', _⟩ := linked.owned j b second
  rw [same, live'] at live
  obtain rfl := Option.some.inj live
  exact linked.apart i j a first b second (Option.some.inj (entry.symm.trans entry'))

/-! ## The queues without an element -/

/-- The element is gone, and its circuit refers to none. -/
def without (e : OnionQueueElement) (old : WaitingCircuit) (q : OnionQueues) : OnionQueues :=
  { q with
    olList := Function.update q.olList e.queueIdx
      ((q.olList e.queueIdx).filter fun element => element.address ≠ e.address)
    olEntries := Function.update q.olEntries e.queueIdx (q.olEntries e.queueIdx - 1)
    circuits := Function.update q.circuits e.circ (some { old with onionqueueEntry := none }) }

theorem filter_address_eq {l : List OnionQueueElement} {e : OnionQueueElement} (member : e ∈ l)
    (inOrder : l.Pairwise fun a b => a.address < b.address) :
    ∃ before after, l = before ++ e :: after
      ∧ (l.filter fun element => element.address ≠ e.address) = before ++ after := by
  obtain ⟨before, after, rfl⟩ := List.append_of_mem member
  obtain ⟨_, back, across⟩ := List.pairwise_append.mp inOrder
  obtain ⟨later, _⟩ := List.pairwise_cons.mp back
  refine ⟨before, after, rfl, ?_⟩
  rw [List.filter_append, List.filter_cons_of_neg (by simp)]
  congr 1
  · apply List.filter_eq_self.mpr
    intro other inside
    have less := across other inside e List.mem_cons_self
    simp only [decide_eq_true_eq]
    omega
  · apply List.filter_eq_self.mpr
    intro other inside
    have less := later other inside
    simp only [decide_eq_true_eq]
    omega

section Without

variable {q : OnionQueues} {e : OnionQueueElement} {old : WaitingCircuit} {i : QueueIdx}

theorem Linked.mem_without (linked : Linked q) (member : e ∈ q.olList i) (j : QueueIdx)
    (other : OnionQueueElement) :
    other ∈ (without e old q).olList j ↔ other ∈ q.olList j ∧ other ≠ e := by
  obtain ⟨rfl, _⟩ := linked.placed i e member
  simp only [without]
  by_cases here : j = e.queueIdx
  · rw [here, Function.update_self, List.mem_filter]
    apply and_congr_right
    intro inside
    simp only [decide_eq_true_eq]
    constructor
    · rintro different rfl
      exact different rfl
    · intro different same
      exact different (linked.apart _ _ other inside e member same)
  · rw [Function.update_of_ne here]
    constructor
    · intro inside
      refine ⟨inside, ?_⟩
      rintro rfl
      exact here (linked.placed j other inside).1.symm
    · exact And.left

theorem olList_without_sublist (e : OnionQueueElement) (old : WaitingCircuit) (q : OnionQueues)
    (j : QueueIdx) : ((without e old q).olList j).Sublist (q.olList j) := by
  simp only [without]
  by_cases here : j = e.queueIdx
  · rw [here, Function.update_self]
    exact List.filter_sublist
  · rw [Function.update_of_ne here]

theorem Linked.olEntries_without (linked : Linked q) (member : e ∈ q.olList i) (j : QueueIdx) :
    (without e old q).olEntries j = ((without e old q).olList j).length := by
  obtain ⟨rfl, _⟩ := linked.placed i e member
  simp only [without]
  by_cases here : j = e.queueIdx
  · rw [here, Function.update_self, Function.update_self, linked.counted]
    obtain ⟨before, after, split, left⟩ := filter_address_eq member (linked.inOrder _)
    rw [left, split]
    simp only [List.length_append, List.length_cons]
    omega
  · rw [Function.update_of_ne here, Function.update_of_ne here]
    exact linked.counted j

theorem Linked.dropped (linked : Linked q) (member : e ∈ q.olList i)
    (live : q.circuits e.circ = some old) : Linked (without e old q) := by
  have members : ∀ j other, other ∈ (without e old q).olList j ↔ other ∈ q.olList j ∧ other ≠ e :=
    linked.mem_without member
  have others : ∀ j, ∀ other ∈ (without e old q).olList j, other.circ ≠ e.circ := by
    intro j other inside same
    obtain ⟨inside, different⟩ := (members j other).mp inside
    exact different (linked.single inside member same)
  constructor
  · exact linked.olEntries_without member
  · intro j other inside
    exact linked.placed j other ((members j other).mp inside).1
  · intro j other inside
    obtain ⟨circ, there, entry⟩ := linked.owned j other ((members j other).mp inside).1
    refine ⟨circ, ?_, entry⟩
    rw [without]
    simp only
    rw [Function.update_of_ne (others j other inside)]
    exact there
  · intro circ circuit address there entry
    rw [without] at there
    simp only at there
    by_cases here : circ = e.circ
    · rw [here, Function.update_self] at there
      obtain rfl := Option.some.inj there
      cases entry
    · rw [Function.update_of_ne here] at there
      obtain ⟨j, other, inside, same, whose⟩ := linked.found circ circuit address there entry
      refine ⟨j, other, (members j other).mpr ⟨inside, ?_⟩, same, whose⟩
      rintro rfl
      exact here whose.symm
  · intro j
    exact (linked.inOrder j).sublist (olList_without_sublist e old q j)
  · intro j k a first b second
    exact linked.apart j k a ((members j a).mp first).1 b ((members k b).mp second).1
  · intro j other inside
    exact linked.issued j other ((members j other).mp inside).1
  · exact linked.turns

section

variable (attached : e.onionskin.isSome = true) (live : q.circuits e.circ = some old)

include attached live

theorem onionQueueEntryRemove_spec : onionQueueEntryRemove e q = some (without e old q) := by
  rw [onionQueueEntryRemove, setOnionqueueEntry, updateCircuit]
  simp only [live, Option.map_some, Option.bind_eq_bind, Option.bind_some, attached, if_true]
  rfl

theorem onionQueueEntryRemove_cleared :
    (setOnionqueueEntry e.circ none q).bind (onionQueueEntryRemove e) = some (without e old q) := by
  rw [setOnionqueueEntry, updateCircuit, live, Option.map_some, Option.bind_some,
    onionQueueEntryRemove_spec attached (Function.update_self _ _ _)]
  simp only [without, Function.update_idem]

end

end Without

/-! ## Circuits -/

section Circuits

variable {q : OnionQueues} {circ : Nat} {old : WaitingCircuit}

theorem Linked.update (linked : Linked q) {f : WaitingCircuit → WaitingCircuit}
    (live : q.circuits circ = some old) (entry : (f old).onionqueueEntry = old.onionqueueEntry)
    (state : old.onionqueueEntry ≠ none → (f old).onionskinPending = old.onionskinPending) :
    Linked { q with circuits := Function.update q.circuits circ (some (f old)) } := by
  obtain ⟨counted, placed, owned, found, inOrder, apart, issued, turns⟩ := linked
  refine ⟨counted, placed, ?_, ?_, inOrder, apart, issued, turns⟩
  · intro i e member
    obtain ⟨other, there, refers, pending⟩ := owned i e member
    by_cases here : e.circ = circ
    · rw [here, live] at there
      obtain rfl := Option.some.inj there
      refine ⟨f old, ?_, entry.trans refers, ?_⟩
      · simp only
        rw [here, Function.update_self]
      · rw [state (by rw [refers]; exact Option.some_ne_none _)]
        exact pending
    · refine ⟨other, ?_, refers, pending⟩
      simp only
      rw [Function.update_of_ne here]
      exact there
  · intro other circuit address there refers
    simp only at there
    by_cases here : other = circ
    · rw [here, Function.update_self] at there
      obtain rfl := Option.some.inj there
      rw [here]
      exact found circ old address live (entry.symm.trans refers)
    · rw [Function.update_of_ne here] at there
      exact found other circuit address there refers

theorem Linked.replace (linked : Linked q) {new : Option WaitingCircuit}
    (unused : ∀ old, q.circuits circ = some old → old.onionqueueEntry = none)
    (idle : ∀ circuit, new = some circuit → circuit.onionqueueEntry = none) :
    Linked { q with circuits := Function.update q.circuits circ new } := by
  obtain ⟨counted, placed, owned, found, inOrder, apart, issued, turns⟩ := linked
  refine ⟨counted, placed, ?_, ?_, inOrder, apart, issued, turns⟩
  · intro i e member
    obtain ⟨other, there, refers, pending⟩ := owned i e member
    have elsewhere : e.circ ≠ circ := by
      intro here
      rw [here] at there
      rw [unused other there] at refers
      cases refers
    refine ⟨other, ?_, refers, pending⟩
    simp only
    rw [Function.update_of_ne elsewhere]
    exact there
  · intro other circuit address there refers
    simp only at there
    by_cases here : other = circ
    · rw [here, Function.update_self] at there
      rw [idle circuit there] at refers
      cases refers
    · rw [Function.update_of_ne here] at there
      exact found other circuit address there refers

end Circuits

end RendezMix.Guarantees.OnionQueues

/-!
# What a call does to the queue

Each call finds what it reads, keeps the links, and moves elements as `Moves` says: an element
arrives at the end of its list and leaves it in one of four ways.
-/
namespace RendezMix.Guarantees.OnionQueues
open Source

/-- The element that a call adds to a list. -/
def arriving (q : OnionQueues) (call : OnionEvent × OnionReply) (i : QueueIdx) :
    List OnionQueueElement :=
  match call with
  | (.add env circ onionskin, .accepted) =>
    let tmp := newElement env.now circ onionskin q
    if tmp.queueIdx = i then [tmp] else []
  | _ => []

/-- The element of a list that a call hands out. -/
def handing (call : OnionEvent × OnionReply) (i : QueueIdx) : List OnionQueueElement :=
  match call.2 with
  | .task e => if e.queueIdx = i then [e] else []
  | _ => []

/-- How an element may leave the queue. -/
def Leaves (call : OnionEvent × OnionReply) (q' : OnionQueues) (e : OnionQueueElement) : Prop :=
  call.2 = .task e ∨ call.1 = .remove e.circ ∨ call.1 = .free e.circ
    ∨ ∃ env circ onionskin, call = (.add env circ onionskin, .accepted)
      ∧ env.now - e.whenAdded ≥ onionqueueWaitCutoff
      ∧ ∃ old, q'.circuits e.circ = some old ∧ old.markedForClose = true

/-- What a call does to the lists and to whose turn it is. -/
structure Moves (q : OnionQueues) (call : OnionEvent × OnionReply) (q' : OnionQueues) : Prop where
  lists : ∀ i, (handing call i ++ q'.olList i).Sublist (q.olList i ++ arriving q call i)
  leaves : ∀ i, ∀ e ∈ q.olList i ++ arriving q call i, e ∈ q'.olList i ∨ Leaves call q' e
  stays : ∀ i, ∀ e ∈ arriving q call i, e ∈ q'.olList i
  issued : q.allocated ≤ q'.allocated
    ∧ ∀ i, ∀ e ∈ arriving q call i, e.address = q.allocated ∧ e.address < q'.allocated
  refused : call.2 = .refused → q' = q
  idle : call.2 = .idle → q.olList tapQueue = [] ∧ q.olList ntorQueue = []
  others : (∀ env, call.1 ≠ .next env) → q'.recentlyChosenNtors = q.recentlyChosenNtors
  turn : ∀ env, call.1 = .next env → q.olList tapQueue ≠ [] → q.olList ntorQueue ≠ [] →
    ∃ e, call.2 = .task e ∧ (e.queueIdx = ntorQueue
        ∧ q'.recentlyChosenNtors = q.recentlyChosenNtors + 1
        ∧ q'.recentlyChosenNtors ≤ numNtorsPerTap env
      ∨ e.queueIdx = tapQueue)

/-! ## Calls that leave the lists alone -/

theorem moves_of_lists {q q' : OnionQueues} {ev : OnionEvent} (next : ∀ env, ev ≠ .next env)
    (lists : q'.olList = q.olList) (turns : q'.recentlyChosenNtors = q.recentlyChosenNtors)
    (allocated : q'.allocated = q.allocated) : Moves q (ev, .done) q' := by
  have none : ∀ i, arriving q (ev, .done) i = [] := by
    intro i
    unfold arriving
    split
    next equal => cases equal
    next => rfl
  constructor
  · intro i
    rw [none, lists, List.append_nil]
    exact List.Sublist.refl _
  · intro i e member
    rw [none, List.append_nil] at member
    exact Or.inl (by rwa [lists])
  · intro i e member
    rw [none] at member
    cases member
  · refine ⟨Nat.le_of_eq allocated.symm, fun i e member => ?_⟩
    rw [none] at member
    cases member
  · exact fun equal => by cases equal
  · exact fun equal => by cases equal
  · exact fun _ => turns
  · exact fun env same => absurd same (next env)

/-! ## Removing -/

section Removing

variable {q : OnionQueues} {circ : Nat} {old : WaitingCircuit}

theorem readElement_spec (linked : Linked q) {i : QueueIdx} {e : OnionQueueElement}
    (member : e ∈ q.olList i) : readElement q e.address = some e := by
  have inside : e ∈ q.olList 0 ++ q.olList 1 ++ q.olList 2 := by
    simp only [List.mem_append]
    match i with
    | 0 => exact Or.inl (Or.inl member)
    | 1 => exact Or.inl (Or.inr member)
    | 2 => exact Or.inr member
  cases read : readElement q e.address with
  | none =>
    have absent := List.find?_eq_none.mp read e inside
    simp at absent
  | some other =>
    have same := List.find?_some read
    have there := List.mem_of_find?_eq_some read
    simp only [decide_eq_true_eq] at same
    simp only [List.mem_append] at there
    congr 1
    rcases there with (there | there) | there
    · exact linked.apart 0 i other there e member same
    · exact linked.apart 1 i other there e member same
    · exact linked.apart 2 i other there e member same

theorem onionPendingRemove_spec (linked : Linked q) (live : q.circuits circ = some old) :
    old.onionqueueEntry = none ∧ onionPendingRemove circ q = some q
      ∨ ∃ i, ∃ e ∈ q.olList i, e.circ = circ
        ∧ onionPendingRemove circ q = some (without e old q) := by
  rw [onionPendingRemove]
  simp only [live, Option.bind_eq_bind, Option.bind_some]
  cases entry : old.onionqueueEntry with
  | none => exact Or.inl ⟨rfl, rfl⟩
  | some address =>
    obtain ⟨i, e, member, rfl, rfl⟩ := linked.found circ old address live entry
    refine Or.inr ⟨i, e, member, rfl, ?_⟩
    simp only [readElement_spec linked member, Option.bind_some]
    exact onionQueueEntryRemove_spec (linked.placed i e member).2 live

/-- The queues without an element, moved as a call that removes it says. -/
theorem Linked.moves_without (linked : Linked q) (old : WaitingCircuit) {i : QueueIdx}
    {e : OnionQueueElement} (member : e ∈ q.olList i) {ev : OnionEvent} (next : ∀ env, ev ≠ .next env) {q' : OnionQueues}
    (leaves : Leaves (ev, .done) q' e) (lists : q'.olList = (without e old q).olList)
    (turns : q'.recentlyChosenNtors = q.recentlyChosenNtors)
    (allocated : q'.allocated = q.allocated) : Moves q (ev, .done) q' := by
  have none : ∀ i, arriving q (ev, .done) i = [] := by
    intro i
    unfold arriving
    split
    next equal => cases equal
    next => rfl
  constructor
  · intro j
    rw [none, lists, List.append_nil]
    exact olList_without_sublist e old q j
  · intro j other inside
    rw [none, List.append_nil] at inside
    by_cases same : other = e
    · exact Or.inr (same ▸ leaves)
    · refine Or.inl ?_
      rw [lists]
      exact (linked.mem_without member j other).mpr ⟨inside, same⟩
  · intro j other inside
    rw [none] at inside
    cases inside
  · refine ⟨Nat.le_of_eq allocated.symm, fun j other inside => ?_⟩
    rw [none] at inside
    cases inside
  · exact fun equal => by cases equal
  · exact fun equal => by cases equal
  · exact fun _ => turns
  · exact fun env same => absurd same (next env)

theorem onionPendingRemove_moves (linked : Linked q) (live : q.circuits circ = some old) :
    ∃ q', onionPendingRemove circ q = some q' ∧ Linked q' ∧ Moves q (.remove circ, .done) q' := by
  rcases onionPendingRemove_spec linked live with ⟨_, same⟩ | ⟨i, e, member, rfl, removed⟩
  · exact ⟨q, same, linked, moves_of_lists (fun _ => by simp) rfl rfl rfl⟩
  · refine ⟨without e old q, removed, linked.dropped member live, ?_⟩
    exact linked.moves_without old member (fun _ => by simp) (Or.inr (Or.inl rfl)) rfl rfl rfl

theorem circuitFreeWaiting_moves (linked : Linked q) (live : q.circuits circ = some old) :
    ∃ q', circuitFreeWaiting circ q = some q' ∧ Linked q' ∧ Moves q (.free circ, .done) q' := by
  rw [circuitFreeWaiting]
  simp only [live, Option.bind_eq_bind, Option.bind_some]
  have quiet : old.onionqueueEntry = none →
      Linked { q with circuits := Function.update q.circuits circ none } := by
    intro none
    apply linked.replace
    · intro other same
      rw [live] at same
      exact Option.some.inj same ▸ none
    · exact fun _ equal => by cases equal
  cases pending : old.onionskinPending with
  | false =>
    have none : old.onionqueueEntry = none := by
      cases entry : old.onionqueueEntry with
      | none => rfl
      | some address =>
        obtain ⟨i, e, member, same, rfl⟩ := linked.found circ old address live entry
        obtain ⟨other, there, _, waits⟩ := linked.owned i e member
        rw [live] at there
        obtain rfl := Option.some.inj there
        rw [pending] at waits
        cases waits
    exact ⟨_, rfl, quiet none, moves_of_lists (fun _ => by simp) rfl rfl rfl⟩
  | true =>
    rcases onionPendingRemove_spec linked live with ⟨none, same⟩ | ⟨i, e, member, rfl, removed⟩
    · simp only [if_true, same, Option.bind_some]
      exact ⟨_, rfl, quiet none, moves_of_lists (fun _ => by simp) rfl rfl rfl⟩
    · simp only [if_true, removed, Option.bind_some]
      refine ⟨_, rfl, ?_, ?_⟩
      · apply (linked.dropped member live).replace
        · intro other same
          simp only [without, Function.update_self, Option.some.injEq] at same
          rw [← same]
        · exact fun _ equal => by cases equal
      · exact linked.moves_without old member (fun _ => by simp) (Or.inr (Or.inr (Or.inl rfl))) rfl rfl rfl

end Removing

/-! ## Handing out -/

section HandingOut

variable {q : OnionQueues}

section

variable (linked : Linked q) (env : OnionEnv)

include linked

theorem Linked.olEntries_eq_zero (i : QueueIdx) : q.olEntries i = 0 ↔ q.olList i = [] := by
  rw [linked.counted, Int.natCast_eq_zero, List.length_eq_zero_iff]

/-- `decide_next_handshake_type`: whose turn it is. -/
theorem decideNextHandshakeType_spec :
    0 ≤ (decideNextHandshakeType env q).2
      ∧ (q.olList (decideNextHandshakeType env q).1 = [] →
        q.olList tapQueue = [] ∧ q.olList ntorQueue = [])
      ∧ (q.olList tapQueue ≠ [] → q.olList ntorQueue ≠ [] →
        (decideNextHandshakeType env q).1 = ntorQueue
            ∧ (decideNextHandshakeType env q).2 = q.recentlyChosenNtors + 1
            ∧ (decideNextHandshakeType env q).2 ≤ numNtorsPerTap env
          ∨ (decideNextHandshakeType env q).1 = tapQueue) := by
  have turns := linked.turns
  rw [decideNextHandshakeType]
  simp only [linked.olEntries_eq_zero]
  by_cases ntors : q.olList ntorQueue = []
  · rw [if_pos ntors]
    exact ⟨turns, fun taps => ⟨taps, ntors⟩, fun _ some => absurd ntors some⟩
  · rw [if_neg ntors]
    by_cases taps : q.olList tapQueue = []
    · rw [if_pos taps]
      refine ⟨?_, fun none => absurd none ntors, fun some => absurd taps some⟩
      simp only
      split <;> omega
    · rw [if_neg taps]
      by_cases turn : q.recentlyChosenNtors + 1 ≤ numNtorsPerTap env
      · rw [if_pos turn]
        exact ⟨by simp only; omega, fun none => absurd none ntors, fun _ _ => Or.inl ⟨rfl, rfl, turn⟩⟩
      · rw [if_neg turn]
        exact ⟨le_refl _, fun none => absurd none taps, fun _ _ => Or.inr rfl⟩

theorem onionNextTask_spec :
    q.olList (decideNextHandshakeType env q).1 = []
        ∧ onionNextTask env q
          = some ({ q with recentlyChosenNtors := (decideNextHandshakeType env q).2 }, none)
      ∨ ∃ head rest old, q.olList (decideNextHandshakeType env q).1 = head :: rest
        ∧ q.circuits head.circ = some old
        ∧ onionNextTask env q = some (without head old
          { q with recentlyChosenNtors := (decideNextHandshakeType env q).2 }, some head) := by
  rw [onionNextTask]
  cases chosen : q.olList (decideNextHandshakeType env q).1 with
  | nil => exact Or.inl ⟨rfl, by simp only [chosen]⟩
  | cons head rest =>
    have member : head ∈ q.olList (decideNextHandshakeType env q).1 := by
      rw [chosen]
      exact List.mem_cons_self
    obtain ⟨old, live, _⟩ := linked.owned _ head member
    refine Or.inr ⟨head, rest, old, rfl, live, ?_⟩
    simp only [chosen, (linked.placed _ head member).2, if_true, setOnionqueueEntry, updateCircuit, live,
      Option.map_some, Option.bind_eq_bind, Option.bind_some, onionQueueEntryRemove,
      Function.update_self, Option.isSome_none, Bool.false_eq_true, if_false, Function.update_idem]
    rfl

theorem Linked.turned {recently : Int} (turns : 0 ≤ recently) :
    Linked { q with recentlyChosenNtors := recently } := by
  obtain ⟨counted, placed, owned, found, inOrder, apart, issued, _⟩ := linked
  exact ⟨counted, placed, owned, found, inOrder, apart, issued, turns⟩

theorem Linked.without_head {i : QueueIdx} {head : OnionQueueElement}
    {rest : List OnionQueueElement} (chosen : q.olList i = head :: rest) (old : WaitingCircuit) :
    (without head old q).olList i = rest := by
  have member : head ∈ q.olList i := by
    rw [chosen]
    exact List.mem_cons_self
  obtain ⟨rfl, _⟩ := linked.placed i head member
  have inOrder := linked.inOrder head.queueIdx
  simp only [without, Function.update_self]
  rw [chosen] at inOrder ⊢
  obtain ⟨later, _⟩ := List.pairwise_cons.mp inOrder
  rw [List.filter_cons_of_neg (by simp), List.filter_eq_self]
  intro other inside
  have less := later other inside
  simp only [decide_eq_true_eq]
  omega

theorem onionNextTask_moves :
    ∃ q' reply, onionStep q (.next env) = some (q', reply) ∧ Linked q'
      ∧ Moves q (.next env, reply) q' := by
  obtain ⟨turns, empty, turn⟩ := decideNextHandshakeType_spec linked env
  have none : ∀ reply i, arriving q (.next env, reply) i = [] := fun _ _ => rfl
  rcases onionNextTask_spec linked env with ⟨nothing, called⟩ | ⟨head, rest, old, chosen, live, called⟩
  · refine ⟨_, .idle, by rw [onionStep, called]; rfl, linked.turned turns, ?_⟩
    constructor
    · intro i
      rw [none, List.append_nil]
      exact List.Sublist.refl _
    · intro i e member
      rw [none, List.append_nil] at member
      exact Or.inl member
    · intro i e member
      rw [none] at member
      cases member
    · exact ⟨le_refl _, fun i e member => by rw [none] at member; cases member⟩
    · exact fun equal => by cases equal
    · exact fun _ => empty nothing
    · exact fun other => absurd rfl (other env)
    · intro _ _ taps _
      exact absurd (empty nothing).1 taps
  · have linked' := linked.turned turns
    have member : head ∈ q.olList (decideNextHandshakeType env q).1 := by
      rw [chosen]
      exact List.mem_cons_self
    obtain ⟨placed, _⟩ := linked.placed _ head member
    refine ⟨_, .task head, by rw [onionStep, called]; rfl, linked'.dropped member live, ?_⟩
    constructor
    · intro i
      rw [none, List.append_nil]
      simp only [handing]
      by_cases here : head.queueIdx = i
      · rw [if_pos here, ← here, placed, linked'.without_head chosen, chosen]
        exact List.Sublist.refl _
      · rw [if_neg here]
        exact olList_without_sublist head old _ i
    · intro i e inside
      rw [none, List.append_nil] at inside
      by_cases same : e = head
      · exact Or.inr (Or.inl (by rw [same]))
      · exact Or.inl ((linked'.mem_without member i e).mpr ⟨inside, same⟩)
    · intro i e inside
      rw [none] at inside
      cases inside
    · exact ⟨le_refl _, fun i e inside => by rw [none] at inside; cases inside⟩
    · exact fun equal => by cases equal
    · exact fun equal => by cases equal
    · exact fun other => absurd rfl (other env)
    · intro env' same taps ntors
      cases same
      refine ⟨head, rfl, ?_⟩
      rw [placed]
      exact turn taps ntors

end

end HandingOut

/-! ## Adding -/

section Adding

variable {q : OnionQueues} {now : Int} {i : QueueIdx}

/-- What the loop that culls does to the queues. -/
structure Culls (now : Int) (q q' : OnionQueues) : Prop where
  lists : ∀ j, (q'.olList j).Sublist (q.olList j)
  leaves : ∀ j, ∀ e ∈ q.olList j, e ∈ q'.olList j ∨ now - e.whenAdded ≥ onionqueueWaitCutoff
    ∧ ∃ old, q'.circuits e.circ = some old ∧ old.markedForClose = true
  marked : ∀ circ old, q.circuits circ = some old → old.markedForClose = true →
    ∃ old', q'.circuits circ = some old' ∧ old'.markedForClose = true
  turns : q'.recentlyChosenNtors = q.recentlyChosenNtors
  allocated : q'.allocated = q.allocated

section

variable (tmp : OnionQueueElement)

theorem Culls.refl (now : Int) (q : OnionQueues) : Culls now q q where
  lists _ := List.Sublist.refl _
  leaves _ _ member := Or.inl member
  marked _ old live marked := ⟨old, live, marked⟩
  turns := rfl
  allocated := rfl

theorem Culls.trans {q' q'' : OnionQueues} (first : Culls now q q') (second : Culls now q' q'') :
    Culls now q q'' where
  lists j := (second.lists j).trans (first.lists j)
  leaves j e member := by
    rcases first.leaves j e member with kept | ⟨old, circ, live, marked⟩
    · exact second.leaves j e kept
    · exact Or.inr ⟨old, second.marked _ circ live marked⟩
  marked circ old live marked := by
    obtain ⟨old', live', marked'⟩ := first.marked circ old live marked
    exact second.marked circ old' live' marked'
  turns := second.turns.trans first.turns
  allocated := second.allocated.trans first.allocated

/-- The head is culled: it is gone, and its circuit is marked. -/
def culled (head : OnionQueueElement) (old : WaitingCircuit) (q : OnionQueues) : OnionQueues :=
  { without head old q with
    circuits := Function.update (without head old q).circuits head.circ
      (some { old with onionqueueEntry := none, markedForClose := true }) }

theorem cullElderly_head (linked : Linked q) {head : OnionQueueElement}
    {rest : List OnionQueueElement} (chosen : q.olList i = head :: rest)
    (elderly : ¬ now - head.whenAdded < onionqueueWaitCutoff) :
    ∃ old, q.circuits head.circ = some old ∧ Linked (culled head old q)
      ∧ Culls now q (culled head old q)
      ∧ ∀ fuel, cullElderly now i (fuel + 1) q = cullElderly now i fuel (culled head old q) := by
  have member : head ∈ q.olList i := by
    rw [chosen]
    exact List.mem_cons_self
  obtain ⟨old, live, _⟩ := linked.owned i head member
  have alive : (without head old q).circuits head.circ = some { old with onionqueueEntry := none } := by
    simp only [without, Function.update_self]
  refine ⟨old, live, ?_, ?_, ?_⟩
  · exact (linked.dropped member live).update (f := fun old => { old with markedForClose := true })
      alive rfl (fun _ => rfl)
  · constructor
    · exact olList_without_sublist head old q
    · intro j e inside
      by_cases same : e = head
      · rw [same]
        refine Or.inr ⟨not_lt.mp elderly, { old with onionqueueEntry := none, markedForClose := true },
          ?_, rfl⟩
        rw [culled]
        simp only [Function.update_self]
      · have kept : e ∈ (without head old q).olList j :=
          (linked.mem_without member j e).mpr ⟨inside, same⟩
        exact Or.inl kept
    · intro circ other there marked
      simp only [culled, without, Function.update_idem]
      by_cases here : circ = head.circ
      · rw [here, Function.update_self]
        exact ⟨{ old with onionqueueEntry := none, markedForClose := true }, rfl, rfl⟩
      · rw [Function.update_of_ne here]
        exact ⟨other, there, marked⟩
    · rfl
    · rfl
  · intro fuel
    obtain ⟨_, attached⟩ := linked.placed i head member
    rw [cullElderly, chosen]
    simp only [if_neg elderly, Option.bind_eq_bind]
    rw [← Option.bind_assoc, onionQueueEntryRemove_cleared attached live]
    simp only [Option.bind_some, alive]
    by_cases marked : old.markedForClose = true
    · have same : culled head old q = without head old q := by
        rw [culled]
        simp only [without, Function.update_idem]
        rw [← marked]
      rw [if_neg (not_not.mpr marked), same]
    · rw [if_pos marked, circuitMarkWaiting, updateCircuit, alive]
      rfl

theorem cullElderly_spec (fuel : Nat) (linked : Linked q) {young : OnionQueueElement}
    (member : young ∈ q.olList i) (recent : now - young.whenAdded < onionqueueWaitCutoff)
    (enough : (q.olList i).length ≤ fuel) :
    ∃ q', cullElderly now i fuel q = some q' ∧ Linked q' ∧ Culls now q q' ∧ young ∈ q'.olList i := by
  induction fuel generalizing q with
  | zero =>
    rw [Nat.le_zero, List.length_eq_zero_iff] at enough
    rw [enough] at member
    cases member
  | succ fuel ih =>
    cases chosen : q.olList i with
    | nil =>
      rw [chosen] at member
      cases member
    | cons head rest =>
      by_cases elderly : now - head.whenAdded < onionqueueWaitCutoff
      · refine ⟨q, ?_, linked, Culls.refl now q, member⟩
        rw [cullElderly, chosen]
        simp only [if_pos elderly]
      · obtain ⟨old, _, linked', culls, step⟩ := cullElderly_head linked chosen elderly
        have left : (culled head old q).olList i = rest := linked.without_head chosen old
        have stays : young ∈ (culled head old q).olList i := by
          rw [left]
          rw [chosen] at member
          rcases List.mem_cons.mp member with rfl | later
          · exact absurd recent elderly
          · exact later
        have shorter : ((culled head old q).olList i).length ≤ fuel := by
          rw [chosen, List.length_cons] at enough
          rw [left]
          omega
        obtain ⟨q', run, linked'', culls', kept⟩ := ih linked' stays shorter
        exact ⟨q', (step fuel).trans run, linked'', culls.trans culls', kept⟩

/-- The element is at the end of its list, and its circuit refers to it. -/
def inserted (tmp : OnionQueueElement) (old : WaitingCircuit) (q : OnionQueues) : OnionQueues :=
  { q with
    olList := Function.update q.olList tmp.queueIdx (q.olList tmp.queueIdx ++ [tmp])
    olEntries := Function.update q.olEntries tmp.queueIdx (q.olEntries tmp.queueIdx + 1)
    circuits := Function.update q.circuits tmp.circ
      (some { old with onionqueueEntry := some tmp.address })
    allocated := q.allocated + 1 }

theorem olList_inserted (old : WaitingCircuit) (q : OnionQueues) (j : QueueIdx) :
    (inserted tmp old q).olList j = q.olList j ++ if tmp.queueIdx = j then [tmp] else [] := by
  simp only [inserted]
  by_cases here : tmp.queueIdx = j
  · rw [if_pos here, ← here, Function.update_self]
  · rw [if_neg here, Function.update_of_ne (Ne.symm here), List.append_nil]

theorem mem_inserted (old : WaitingCircuit) (q : OnionQueues) (j : QueueIdx)
    (e : OnionQueueElement) :
    e ∈ (inserted tmp old q).olList j ↔ e ∈ q.olList j ∨ tmp.queueIdx = j ∧ e = tmp := by
  rw [olList_inserted, List.mem_append]
  by_cases here : tmp.queueIdx = j
  · rw [if_pos here, List.mem_singleton]
    simp only [here, true_and]
  · rw [if_neg here]
    simp only [here, false_and, List.not_mem_nil]

theorem Linked.inserted (linked : Linked q) {tmp : OnionQueueElement} {old : WaitingCircuit}
    (attached : tmp.onionskin.isSome = true) (address : tmp.address = q.allocated)
    (live : q.circuits tmp.circ = some old) (pending : old.onionskinPending = true)
    (idle : old.onionqueueEntry = none) : Linked (inserted tmp old q) := by
  have others : ∀ j, ∀ e ∈ q.olList j, e.circ ≠ tmp.circ := by
    intro j e member same
    obtain ⟨circuit, there, refers, _⟩ := linked.owned j e member
    rw [same, live] at there
    obtain rfl := Option.some.inj there
    rw [idle] at refers
    cases refers
  have members := mem_inserted tmp old q
  constructor
  · intro j
    rw [olList_inserted]
    simp only [OnionQueues.inserted]
    by_cases here : tmp.queueIdx = j
    · rw [if_pos here, ← here, Function.update_self, linked.counted, List.length_append]
      rfl
    · rw [if_neg here, Function.update_of_ne (Ne.symm here), List.append_nil]
      exact linked.counted j
  · intro j e member
    rcases (members j e).mp member with before | ⟨here, rfl⟩
    · exact linked.placed j e before
    · exact ⟨here, attached⟩
  · intro j e member
    simp only [OnionQueues.inserted]
    rcases (members j e).mp member with before | ⟨here, rfl⟩
    · rw [Function.update_of_ne (others j e before)]
      exact linked.owned j e before
    · rw [Function.update_self]
      exact ⟨_, rfl, rfl, pending⟩
  · intro circ circuit a there refers
    simp only [OnionQueues.inserted] at there
    by_cases here : circ = tmp.circ
    · rw [here, Function.update_self] at there
      obtain rfl := Option.some.inj there
      refine ⟨tmp.queueIdx, tmp, (members _ _).mpr (Or.inr ⟨rfl, rfl⟩), ?_, here.symm⟩
      exact Option.some.inj refers
    · rw [Function.update_of_ne here] at there
      obtain ⟨j, e, before, same, whose⟩ := linked.found circ circuit a there refers
      exact ⟨j, e, (members j e).mpr (Or.inl before), same, whose⟩
  · intro j
    rw [olList_inserted]
    by_cases here : tmp.queueIdx = j
    · rw [if_pos here, List.pairwise_append]
      refine ⟨linked.inOrder j, List.pairwise_singleton _ _, ?_⟩
      intro a before b last
      rw [List.mem_singleton.mp last, address]
      exact linked.issued j a before
    · rw [if_neg here, List.append_nil]
      exact linked.inOrder j
  · intro j k a first b second same
    rcases (members j a).mp first with before | ⟨_, rfl⟩
    · rcases (members k b).mp second with before' | ⟨_, rfl⟩
      · exact linked.apart j k a before b before' same
      · have less := linked.issued j a before
        omega
    · rcases (members k b).mp second with before' | ⟨_, rfl⟩
      · have less := linked.issued k b before'
        omega
      · rfl
  · intro j e member
    simp only [OnionQueues.inserted]
    rcases (members j e).mp member with before | ⟨_, rfl⟩
    · have less := linked.issued j e before
      omega
    · omega
  · exact linked.turns

theorem onionPendingAdd_moves (linked : Linked q) (env : OnionEnv) {circ : Nat}
    (onionskin : CreateCell) {old : WaitingCircuit} (live : q.circuits circ = some old)
    (pending : old.onionskinPending = true) (idle : old.onionqueueEntry = none) :
    ∃ q' reply, onionStep q (.add env circ onionskin) = some (q', reply) ∧ Linked q'
      ∧ Moves q (.add env circ onionskin, reply) q' := by
  have refused : Moves q (.add env circ onionskin, .refused) q := by
    constructor
    · exact fun i => by simp only [handing, arriving, List.append_nil, List.nil_append,
        List.Sublist.refl]
    · intro i e member
      simp only [arriving, List.append_nil] at member
      exact Or.inl member
    · intro i e member
      simp only [arriving, List.not_mem_nil] at member
    · refine ⟨le_refl _, fun i e member => ?_⟩
      simp only [arriving, List.not_mem_nil] at member
    · exact fun _ => rfl
    · exact fun equal => by cases equal
    · exact fun _ => rfl
    · exact fun _ equal => by cases equal
  rw [onionStep, onionPendingAdd]
  by_cases large : onionskin.handshakeType > maxOnionHandshakeType
  · rw [if_pos large]
    exact ⟨q, .refused, rfl, linked, refused⟩
  · rw [if_neg large]
    let tmp := newElement env.now circ onionskin q
    by_cases room : haveRoomForOnionskin env q.olEntries tmp.queueIdx = true
    · have linked' : Linked (inserted tmp old q) := linked.inserted rfl rfl live pending idle
      have last : tmp ∈ (inserted tmp old q).olList tmp.queueIdx :=
        (mem_inserted tmp old q _ tmp).mpr (Or.inr ⟨rfl, rfl⟩)
      have recent : env.now - tmp.whenAdded < onionqueueWaitCutoff := by
        simp [tmp, newElement, onionqueueWaitCutoff]
      obtain ⟨q', run, linked'', culls, kept⟩ :=
        cullElderly_spec _ linked' last recent (le_refl _)
      have arrives : ∀ i, arriving q (.add env circ onionskin, .accepted) i
          = if tmp.queueIdx = i then [tmp] else [] := fun _ => rfl
      refine ⟨q', .accepted, ?_, linked'', ?_⟩
      · simp only [tmp] at room
        simp only [room, Bool.not_true, Bool.false_eq_true, if_false, setOnionqueueEntry,
          updateCircuit, live, Option.map_some, Option.bind_eq_bind, Option.bind_some]
        have same : ((cullElderly env.now tmp.queueIdx
            ((inserted tmp old q).olList tmp.queueIdx).length (inserted tmp old q)).bind
            fun q => some (q, true)) = some (q', true) := by
          rw [run]
          rfl
        exact congrArg (Option.map _) same
      · constructor
        · intro i
          rw [arrives, ← olList_inserted]
          exact culls.lists i
        · intro i e member
          rw [arrives, ← olList_inserted] at member
          rcases culls.leaves i e member with stays | ⟨late, marked⟩
          · exact Or.inl stays
          · exact Or.inr (Or.inr (Or.inr (Or.inr ⟨env, circ, onionskin, rfl, late, marked⟩)))
        · intro i e member
          rw [arrives] at member
          by_cases here : tmp.queueIdx = i
          · rw [if_pos here, List.mem_singleton] at member
            rw [member, ← here]
            exact kept
          · rw [if_neg here] at member
            cases member
        · rw [culls.allocated]
          refine ⟨Nat.le_succ _, fun i e member => ?_⟩
          rw [arrives] at member
          by_cases here : tmp.queueIdx = i
          · rw [if_pos here, List.mem_singleton] at member
            rw [member]
            exact ⟨rfl, Nat.lt_succ_self _⟩
          · rw [if_neg here] at member
            cases member
        · exact fun equal => by cases equal
        · exact fun equal => by cases equal
        · exact fun _ => culls.turns
        · exact fun _ equal => by cases equal
    · simp only [tmp] at room
      simp only [room, Bool.not_false, if_true]
      exact ⟨q, .refused, rfl, linked, refused⟩

end

end Adding

end RendezMix.Guarantees.OnionQueues
