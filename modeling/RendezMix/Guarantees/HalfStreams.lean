import RendezMix.Library.KeyedLists
import RendezMix.Source.HalfEdges

/-!
# Half-closed streams one by one

The list of half edges stays sorted by stream identifier, so that the binary search finds the
half edge of a stream where there is one; and each event does to the half edge of its stream
what it would do if there were no other stream.
-/
namespace RendezMix.Guarantees.HalfStreams
open Library.KeyedLists Source

/-- The half edges, also where there is no list. -/
def edges (halfStreams : HalfStreams) : List HalfEdge := halfStreams.getD []

/-- The stream identifiers of a list increase. -/
def Ascending (l : List HalfEdge) : Prop :=
  l.Pairwise fun a b => a.streamId.toNat < b.streamId.toNat

/-- The half edge of a stream. -/
def halfOf (halfStreams : HalfStreams) (streamId : UInt16) : Option HalfEdge :=
  find HalfEdge.streamId streamId (edges halfStreams)

/-! ## Sorted lists -/

section Lists

variable {l : List HalfEdge} {half half' : HalfEdge} {idx : Nat}

theorem Ascending.distinct (ascending : Ascending l) : Distinct HalfEdge.streamId l := by
  apply List.pairwise_map.mpr
  apply ascending.imp
  intro a b lt same
  rw [same] at lt
  omega

theorem Ascending.sortedFor (ascending : Ascending l) (streamId : UInt16) :
    SortedFor (connectionHalfEdgeCompareBsearch streamId) l := by
  apply ascending.imp
  intro a b lt
  simp only [connectionHalfEdgeCompareBsearch, compare_gt_iff_gt, compare_lt_iff_lt]
  omega

theorem Ascending.find_place (ascending : Ascending l) {streamId : UInt16}
    (place : PlaceOf (connectionHalfEdgeCompareBsearch streamId) l idx true) :
    ∃ half, l[idx]? = some half ∧ half.streamId = streamId
      ∧ find HalfEdge.streamId streamId l = some half := by
  obtain ⟨half, at_idx, equal⟩ := place.matched rfl
  have same : half.streamId = streamId := by
    rw [connectionHalfEdgeCompareBsearch, compare_eq_iff_eq] at equal
    exact (UInt16.toNat_inj.mp equal).symm
  refine ⟨half, at_idx, same, ?_⟩
  rw [← same]
  exact ascending.distinct.find_of_mem (List.mem_of_getElem? at_idx)

theorem PlaceOf.between {streamId : UInt16}
    (place : PlaceOf (connectionHalfEdgeCompareBsearch streamId) l idx false) :
    (∀ half ∈ l.take idx, half.streamId.toNat < streamId.toNat)
      ∧ ∀ half ∈ l.drop idx, streamId.toNat < half.streamId.toNat := by
  constructor
  · intro half member
    obtain ⟨i, at_i⟩ := List.getElem?_of_mem member
    obtain ⟨bound, _⟩ := List.getElem?_eq_some_iff.mp at_i
    have early : i < idx := by
      rw [List.length_take] at bound
      omega
    rw [List.getElem?_take_of_lt early] at at_i
    rcases place.before i half early at_i with greater | ⟨matched, _⟩
    · exact compare_gt_iff_gt.mp greater
    · cases matched
  · intro half member
    obtain ⟨i, at_i⟩ := List.getElem?_of_mem member
    rw [List.getElem?_drop] at at_i
    rcases place.after (idx + i) half (Nat.le_add_right _ _) at_i with less | ⟨matched, _⟩
    · exact compare_lt_iff_lt.mp less
    · cases matched

theorem PlaceOf.absent {streamId : UInt16}
    (place : PlaceOf (connectionHalfEdgeCompareBsearch streamId) l idx false) :
    find HalfEdge.streamId streamId l = none := by
  obtain ⟨before, after⟩ := PlaceOf.between place
  rw [find_eq_none]
  intro half member same
  rw [← List.take_append_drop idx l] at member
  rcases List.mem_append.mp member with early | late
  · have lt := before half early
    rw [same] at lt
    omega
  · have lt := after half late
    rw [same] at lt
    omega

theorem insertIdx_eq_append (half : HalfEdge) (bound : idx ≤ l.length) :
    l.insertIdx idx half = l.take idx ++ half :: l.drop idx := by
  induction l generalizing idx with
  | nil =>
    obtain rfl : idx = 0 := by simpa using bound
    rfl
  | cons first l ih =>
    cases idx with
    | zero => rfl
    | succ idx =>
      rw [List.insertIdx_succ_cons, ih (Nat.le_of_succ_le_succ bound), List.take_succ_cons,
        List.drop_succ_cons, List.cons_append]

theorem Ascending.insertIdx (ascending : Ascending l)
    (place : PlaceOf (connectionHalfEdgeCompareBsearch half.streamId) l idx false) :
    Ascending (l.insertIdx idx half) := by
  obtain ⟨before, after⟩ := PlaceOf.between place
  rw [insertIdx_eq_append half place.le]
  have parts := ascending
  rw [← List.take_append_drop idx l] at parts
  obtain ⟨front, back, across⟩ := List.pairwise_append.mp parts
  apply List.pairwise_append.mpr
  refine ⟨front, List.pairwise_cons.mpr ⟨after, back⟩, ?_⟩
  intro a first b second
  rcases List.mem_cons.mp second with rfl | rest
  · exact before a first
  · exact across a first b rest

theorem Ascending.set (ascending : Ascending l) (at_idx : l[idx]? = some half)
    (same : half'.streamId = half.streamId) : Ascending (l.set idx half') := by
  obtain ⟨inside, rfl⟩ := List.getElem?_eq_some_iff.mp at_idx
  have keys : (l.set idx half').map HalfEdge.streamId = l.map HalfEdge.streamId := by
    rw [List.map_set, same]
    have bound : idx < (l.map HalfEdge.streamId).length := by simpa
    have kept : (l.map HalfEdge.streamId).set idx (l.map HalfEdge.streamId)[idx]
        = l.map HalfEdge.streamId := List.set_getElem_self bound
    rwa [List.getElem_map] at kept
  have ordered : ((l.set idx half').map HalfEdge.streamId).Pairwise fun a b => a.toNat < b.toNat := by
    rw [keys, List.pairwise_map]
    exact ascending
  rwa [List.pairwise_map] at ordered

end Lists

/-! ## One stream -/

/-- The stream that an event is about. -/
def streamOf : HalfEvent → UInt16
  | .close _ conn => conn.streamId
  | .arrive _ cell => cell.streamId

/-- What a cell does to the half edge of its stream, and whether it is accepted. -/
def cellStep (nowUsec : UInt64) (cell : HalfCell) (half : HalfEdge) : Option HalfEdge × Bool :=
  match cell.command with
  | .data => if cell.streamId = 0 then (some half, false) else (isValidData nowUsec half).map some id
  | .sendme => if cell.streamId = 0 then (some half, false) else (isValidSendme half).map some id
  | .connected => (isValidConnected half).map some id
  | .xoff | .xon => if cell.fromLastHop then (isValidData nowUsec half).map some id else (some half, false)
  | .end_ | .resolved => if cell.fromLastHop then (none, true) else (some half, false)

/-- What an event does to the half edge of its stream, if there is one. -/
def streamStep (half : Option HalfEdge) : HalfEvent → Option HalfEdge × Bool
  | .close clock conn => (some (half.getD (newHalfEdge clock conn)), false)
  | .arrive nowUsec cell =>
    match half with
    | some half => cellStep nowUsec cell half
    | none => (none, false)

/-- A call changes the half edge of one stream, and keeps the list in order. -/
def Changes (halfStreams : HalfStreams) (streamId : UInt16) (call : Option (HalfStreams × Bool))
    (result : Option HalfEdge × Bool) : Prop :=
  ∃ after, call = some (after, result.2) ∧ Ascending (edges after)
    ∧ ∀ id, halfOf after id = if id = streamId then result.1 else halfOf halfStreams id

section Calls

variable {halfStreams : HalfStreams} {streamId : UInt16}

section

variable (ascending : Ascending (edges halfStreams))

include ascending

theorem changes_nothing (streamId : UInt16) :
    Changes halfStreams streamId (some (halfStreams, false)) (halfOf halfStreams streamId, false) := by
  refine ⟨_, rfl, ascending, ?_⟩
  intro id
  by_cases same : id = streamId
  · rw [if_pos same, same]
  · rw [if_neg same]

theorem connectionHalfEdgeFindStreamId_spec (streamId : UInt16) :
    ∃ found, connectionHalfEdgeFindStreamId halfStreams streamId = some found
      ∧ found.map Prod.snd = halfOf halfStreams streamId
      ∧ ∀ idx half, found = some (idx, half) → (edges halfStreams)[idx]? = some half := by
  cases halfStreams with
  | none => exact ⟨none, rfl, rfl, fun _ _ equal => by cases equal⟩
  | some l =>
    obtain ⟨idx, found, search, place⟩ := smartlistBsearchIdx_spec (ascending.sortedFor streamId)
    have run : connectionHalfEdgeFindStreamId (some l) streamId
        = some (if found then l[idx]?.map fun half => (idx, half) else none) := by
      rw [connectionHalfEdgeFindStreamId]
      simp only [edges, Option.getD_some] at search
      rw [search]
      rfl
    refine ⟨_, run, ?_⟩
    cases found with
    | false => exact ⟨(PlaceOf.absent place).symm, fun _ _ equal => by cases equal⟩
    | true =>
      obtain ⟨half, at_idx, _, present⟩ := ascending.find_place place
      simp only [edges, Option.getD_some] at at_idx
      rw [if_pos rfl, at_idx]
      refine ⟨present.symm, ?_⟩
      intro idx' half' equal
      obtain ⟨rfl, rfl⟩ : idx = idx' ∧ half = half' := by simpa using equal
      exact at_idx

theorem checkHalfEdge_changes (streamId : UInt16) {check : HalfEdge → HalfEdge × Bool}
    (keeps : ∀ half, (check half).1.streamId = half.streamId) :
    Changes halfStreams streamId (checkHalfEdge halfStreams streamId check)
      (match halfOf halfStreams streamId with
        | some half => (check half).map some id
        | none => (none, false)) := by
  obtain ⟨found, search, present, place⟩ := connectionHalfEdgeFindStreamId_spec ascending streamId
  rw [checkHalfEdge, search]
  cases found with
  | none =>
    have absent : halfOf halfStreams streamId = none := present.symm
    have idle := changes_nothing ascending streamId
    rw [absent] at idle ⊢
    exact idle
  | some entry =>
    obtain ⟨idx, half⟩ := entry
    have present : halfOf halfStreams streamId = some half := present.symm
    have at_idx := place idx half rfl
    rw [present]
    cases halfStreams with
    | none => cases at_idx
    | some l =>
      refine ⟨_, rfl, ascending.set at_idx (keeps half), ?_⟩
      intro id
      have key : half.streamId = streamId := find_key present
      have after := ascending.distinct.find_set at_idx (keeps half) id
      rw [key] at after
      exact after

theorem connectionHalfEdgeIsValidEnd_changes (streamId : UInt16) :
    Changes halfStreams streamId (connectionHalfEdgeIsValidEnd halfStreams streamId)
      (none, (halfOf halfStreams streamId).isSome) := by
  cases halfStreams with
  | none => exact changes_nothing ascending streamId
  | some l =>
    obtain ⟨idx, found, search, place⟩ := smartlistBsearchIdx_spec (ascending.sortedFor streamId)
    simp only [edges, Option.getD_some] at search place
    rw [connectionHalfEdgeIsValidEnd, search]
    cases found with
    | false =>
      have absent : halfOf (some l) streamId = none := PlaceOf.absent place
      have idle := changes_nothing ascending streamId
      rw [absent] at idle ⊢
      exact idle
    | true =>
      obtain ⟨half, at_idx, key, present⟩ := ascending.find_place place
      have present : halfOf (some l) streamId = some half := present
      rw [present]
      refine ⟨_, rfl, ?_, ?_⟩
      · exact ascending.sublist (List.eraseIdx_sublist l idx)
      · intro id
        have after := ascending.distinct.find_eraseIdx at_idx id
        rw [key] at after
        exact after

theorem connectionHalfEdgeAdd_changes (clock : HalfClock) (conn : ClosingEdge) :
    Changes halfStreams conn.streamId
      ((connectionHalfEdgeAdd clock conn halfStreams).map fun after => (after, false))
      (some ((halfOf halfStreams conn.streamId).getD (newHalfEdge clock conn)), false) := by
  obtain ⟨found, search, present, _⟩ :=
    connectionHalfEdgeFindStreamId_spec ascending conn.streamId
  rw [connectionHalfEdgeAdd, search]
  cases found with
  | some entry =>
    have present : halfOf halfStreams conn.streamId = some entry.2 := present.symm
    have idle := changes_nothing ascending conn.streamId
    rw [present] at idle ⊢
    exact idle
  | none =>
    have absent : halfOf halfStreams conn.streamId = none := present.symm
    have key : (newHalfEdge clock conn).streamId = conn.streamId := by
      rw [newHalfEdge]
      split <;> rfl
    obtain ⟨idx, matched, place, spec⟩ := smartlistBsearchIdx_spec
      (ascending.sortedFor (newHalfEdge clock conn).streamId)
    have unmatched : matched = false := by
      cases matched with
      | false => rfl
      | true =>
        obtain ⟨half, _, _, there⟩ := ascending.find_place spec
        rw [key] at there
        exact absurd (absent.symm.trans there) (Option.some_ne_none half).symm
    subst unmatched
    have run : smartlistBsearchIdx
        (connectionHalfEdgeCompareBsearch (newHalfEdge clock conn).streamId) (halfStreams.getD [])
        = some (idx, false) := place
    simp only [Option.bind_eq_bind, Option.bind_some, Option.isSome_none, Bool.false_eq_true,
      if_false, run]
    rw [absent]
    refine ⟨_, rfl, ascending.insertIdx spec, ?_⟩
    intro id
    have after := ascending.distinct.find_insertIdx spec.le
      (by rw [key]; exact absent) id
    rw [key] at after
    exact after

end

theorem isValidData_keeps (nowUsec : UInt64) (half : HalfEdge) :
    (isValidData nowUsec half).1.streamId = half.streamId := by
  rw [isValidData]
  split_ifs <;> rfl

theorem isValidSendme_keeps (half : HalfEdge) : (isValidSendme half).1.streamId = half.streamId := by
  rw [isValidSendme]
  split_ifs <;> rfl

theorem isValidConnected_keeps (half : HalfEdge) :
    (isValidConnected half).1.streamId = half.streamId := by
  rw [isValidConnected]
  split_ifs <;> rfl

theorem handleHalfCell_changes (ascending : Ascending (edges halfStreams)) (nowUsec : UInt64)
    (cell : HalfCell) :
    Changes halfStreams cell.streamId (handleHalfCell nowUsec halfStreams cell)
      (match halfOf halfStreams cell.streamId with
        | some half => cellStep nowUsec cell half
        | none => (none, false)) := by
  have idle := changes_nothing ascending cell.streamId
  have data := checkHalfEdge_changes ascending cell.streamId (isValidData_keeps nowUsec)
  have sendme := checkHalfEdge_changes ascending cell.streamId isValidSendme_keeps
  have connected := checkHalfEdge_changes ascending cell.streamId isValidConnected_keeps
  have ended := connectionHalfEdgeIsValidEnd_changes ascending cell.streamId
  rw [handleHalfCell]
  cases present : halfOf halfStreams cell.streamId with
  | none | some =>
    rw [present] at idle data sendme connected ended
    simp only [cellStep]
    cases cell.command with
    | data =>
      simp only
      split
      · exact idle
      · exact data
    | sendme =>
      simp only
      split
      · exact idle
      · exact sendme
    | connected => exact connected
    | xoff | xon =>
      simp only
      split
      · exact data
      · exact idle
    | end_ | resolved =>
      simp only
      split
      · exact ended
      · exact idle

theorem halfStep_changes (ascending : Ascending (edges halfStreams)) (ev : HalfEvent) :
    Changes halfStreams (streamOf ev) (halfStep halfStreams ev)
      (streamStep (halfOf halfStreams (streamOf ev)) ev) := by
  cases ev with
  | close clock conn => exact connectionHalfEdgeAdd_changes ascending clock conn
  | arrive nowUsec cell => exact handleHalfCell_changes ascending nowUsec cell

end Calls

/-! ## Runs -/

/-- Whether each event made the code accept a cell. -/
abbrev Outcomes := List (HalfEvent × Bool)

/-- The run of one stream: its half edge, and what became of each of its events. -/
def streamRun (half : Option HalfEdge) : List HalfEvent → Option HalfEdge × Outcomes
  | [] => (half, [])
  | ev :: evs =>
    let result := streamStep half ev
    let rest := streamRun result.1 evs
    (rest.1, (ev, result.2) :: rest.2)

/-- The events of a stream. -/
def eventsOf (streamId : UInt16) (evs : List HalfEvent) : List HalfEvent :=
  evs.filter fun ev => streamOf ev = streamId

/-- What became of the events of a stream. -/
def outcomesOf (streamId : UInt16) (evs : List HalfEvent) (valids : List Bool) : Outcomes :=
  (evs.zip valids).filter fun outcome => streamOf outcome.1 = streamId

/-- A run of all streams is a run of each of them. -/
theorem halfRun_streams (evs : List HalfEvent) {halfStreams : HalfStreams}
    (ascending : Ascending (edges halfStreams)) :
    ∃ after valids, halfRun halfStreams evs = some (after, valids) ∧ Ascending (edges after)
      ∧ valids.length = evs.length
      ∧ ∀ streamId, streamRun (halfOf halfStreams streamId) (eventsOf streamId evs)
        = (halfOf after streamId, outcomesOf streamId evs valids) := by
  induction evs generalizing halfStreams with
  | nil => exact ⟨halfStreams, [], rfl, ascending, rfl, fun _ => rfl⟩
  | cons ev evs ih =>
    obtain ⟨mid, step, ordered, changed⟩ := halfStep_changes ascending ev
    obtain ⟨after, valids, run, ordered', length, streams⟩ := ih ordered
    refine ⟨after, (streamStep (halfOf halfStreams (streamOf ev)) ev).2 :: valids, ?_, ordered', ?_,
      ?_⟩
    · rw [halfRun, step]
      simp only [Option.bind_eq_bind, Option.bind_some, run]
      rfl
    · rw [List.length_cons, List.length_cons, length]
    · intro streamId
      have rest := streams streamId
      rw [changed] at rest
      by_cases here : streamOf ev = streamId
      · subst here
        have events : eventsOf (streamOf ev) (ev :: evs) = ev :: eventsOf (streamOf ev) evs :=
          List.filter_cons_of_pos (by simp)
        rw [if_pos rfl] at rest
        rw [events, streamRun, outcomesOf, List.zip_cons_cons, List.filter_cons_of_pos (by simp)]
        simp only [rest]
        rfl
      · have events : eventsOf streamId (ev :: evs) = eventsOf streamId evs :=
          List.filter_cons_of_neg (by simpa using here)
        rw [if_neg fun same => here same.symm] at rest
        rw [events, rest, outcomesOf, outcomesOf, List.zip_cons_cons,
          List.filter_cons_of_neg (by simpa using here)]

end RendezMix.Guarantees.HalfStreams

/-!
# What a half-closed stream accepts

A half edge is a record of allowances: each cell that is accepted is taken off one of them, or
arrives in time; and an accepted END ends the half edge. So a stream accepts no more than was
recorded, and where the cells that arrive are covered by what was recorded it accepts them all.
-/
namespace RendezMix.Guarantees.HalfStreams
open Source

/-- The cells that count as data. -/
def isDataLike : HalfCommand → Bool
  | .data | .xoff | .xon => true
  | _ => false

/-- The cells that end a stream. -/
def isEnd : HalfCommand → Bool
  | .end_ | .resolved => true
  | _ => false

/-- The cell of an event has a command of this kind. -/
def arrives (kind : HalfCommand → Bool) : HalfEvent → Bool
  | .arrive _ cell => kind cell.command
  | .close _ _ => false

/-- A cell of this kind was accepted. -/
def acceptedOf (kind : HalfCommand → Bool) (outcome : HalfEvent × Bool) : Bool :=
  outcome.2 && arrives kind outcome.1

/-- What happens until the stream is ended. -/
def firstLife (outcomes : Outcomes) : Outcomes := outcomes.takeWhile fun o => !acceptedOf isEnd o

/-! ## One cell -/

/-- The ways in which a cell is taken. -/
inductive Taken (nowUsec : UInt64) (cell : HalfCell) (half : HalfEdge) : Option HalfEdge × Bool → Prop
  | refused : Taken nowUsec cell half (some half, false)
  | inTime : half.usedCcontrol = true → isDataLike cell.command = true →
      nowUsec ≤ half.endAckExpectedUsec → Taken nowUsec cell half (some half, true)
  | data : half.usedCcontrol = false → isDataLike cell.command = true → half.dataPending > 0 →
      Taken nowUsec cell half (some { half with dataPending := half.dataPending - 1 }, true)
  | sendme : half.usedCcontrol = false → cell.command = .sendme → half.sendmesPending > 0 →
      Taken nowUsec cell half (some { half with sendmesPending := half.sendmesPending - 1 }, true)
  | connected : cell.command = .connected → half.connectedPending = true →
      Taken nowUsec cell half (some { half with connectedPending := false }, true)
  | ended : isEnd cell.command = true → Taken nowUsec cell half (none, true)

section

variable (evs : List HalfEvent) {nowUsec : UInt64} {cell : HalfCell} {valid : Bool}

theorem isValidData_taken (kind : isDataLike cell.command = true) (half : HalfEdge) :
    Taken nowUsec cell half ((isValidData nowUsec half).map some id) := by
  rw [isValidData]
  by_cases timed : half.usedCcontrol = true
  · rw [if_pos timed]
    by_cases late : nowUsec > half.endAckExpectedUsec
    · rw [decide_eq_true late]
      exact Taken.refused
    · rw [decide_eq_false late]
      exact Taken.inTime timed kind (UInt64.not_lt.mp late)
  · rw [if_neg timed]
    rw [Bool.not_eq_true] at timed
    split
    next more => exact Taken.data timed kind more
    next => exact Taken.refused

theorem cellStep_taken (nowUsec : UInt64) (cell : HalfCell) (half : HalfEdge) :
    Taken nowUsec cell half (cellStep nowUsec cell half) := by
  rw [cellStep]
  cases command : cell.command with
  | data =>
    simp only
    split
    · exact Taken.refused
    · exact isValidData_taken (by rw [command]; rfl) half
  | sendme =>
    simp only
    split
    · exact Taken.refused
    · rw [isValidSendme]
      split
      next => exact Taken.refused
      next fixed =>
        split
        next more => exact Taken.sendme (Bool.not_eq_true _ ▸ fixed) command more
        next => exact Taken.refused
  | connected =>
    simp only
    rw [isValidConnected]
    split
    next pending => exact Taken.connected command pending
    next => exact Taken.refused
  | xoff | xon =>
    simp only
    split
    · exact isValidData_taken (by rw [command]; rfl) half
    · exact Taken.refused
  | end_ | resolved =>
    simp only
    split
    · exact Taken.ended (by rw [command]; rfl)
    · exact Taken.refused

/-! ## No more than was recorded -/

/-- The cells of this kind are counted: a stream with congestion control does not count data. -/
def Counted (kind : HalfCommand → Bool) (half : HalfEdge) : Prop :=
  half.usedCcontrol = true → ∀ command, kind command = true → isDataLike command = false

/-- What a stream has left of the cells of one kind: what is accepted is taken off. -/
def Allowance (kind : HalfCommand → Bool) (left : HalfEdge → Nat) : Prop :=
  ∀ nowUsec cell half half' valid, Counted kind half →
    cellStep nowUsec cell half = (some half', valid) →
    left half' + (if valid && kind cell.command then 1 else 0) ≤ left half

theorem allowance_data : Allowance isDataLike fun half => half.dataPending.toNat := by
  intro nowUsec cell half half' valid counted step
  have taken := cellStep_taken nowUsec cell half
  rw [step] at taken
  cases taken with
  | refused => simp
  | inTime timed kind _ => exact absurd (counted timed _ kind) (by rw [kind]; exact Bool.noConfusion)
  | data _ kind more =>
    rw [kind]
    simp only [Bool.and_self, if_true]
    omega
  | sendme _ kind _ | connected kind _ => rw [kind]; simp [isDataLike]

theorem dataLike_ne {command : HalfCommand} (kind : isDataLike command = true)
    (other : HalfCommand) (not : isDataLike other = false) : command ≠ other := by
  rintro rfl
  rw [kind] at not
  cases not

theorem allowance_sendme :
    Allowance (fun command => command = .sendme) fun half => half.sendmesPending.toNat := by
  intro nowUsec cell half half' valid _ step
  have taken := cellStep_taken nowUsec cell half
  rw [step] at taken
  cases taken with
  | refused => simp
  | inTime _ kind _ | data _ kind _ => simp [dataLike_ne kind .sendme rfl]
  | sendme _ kind more =>
    rw [kind]
    simp only [decide_true, Bool.and_self, if_true]
    omega
  | connected kind _ => rw [kind]; simp

theorem allowance_connected :
    Allowance (fun command => command = .connected) fun half => half.connectedPending.toNat := by
  intro nowUsec cell half half' valid _ step
  have taken := cellStep_taken nowUsec cell half
  rw [step] at taken
  cases taken with
  | refused => simp
  | inTime _ kind _ | data _ kind _ => simp [dataLike_ne kind .connected rfl]
  | sendme _ kind _ => rw [kind]; simp
  | connected kind pending => simp [kind, pending]

theorem cellStep_usedCcontrol {half half' : HalfEdge}
    (step : cellStep nowUsec cell half = (some half', valid)) :
    half'.usedCcontrol = half.usedCcontrol
      ∧ half'.endAckExpectedUsec = half.endAckExpectedUsec := by
  have taken := cellStep_taken nowUsec cell half
  rw [step] at taken
  cases taken <;> exact ⟨rfl, rfl⟩

theorem cellStep_none {half : HalfEdge} (step : cellStep nowUsec cell half = (none, valid)) :
    valid = true ∧ isEnd cell.command = true := by
  have taken := cellStep_taken nowUsec cell half
  rw [step] at taken
  cases taken with
  | ended kind => exact ⟨rfl, kind⟩

theorem cellStep_some {half half' : HalfEdge}
    (step : cellStep nowUsec cell half = (some half', valid)) :
    (valid && isEnd cell.command) = false := by
  have taken := cellStep_taken nowUsec cell half
  rw [step] at taken
  have notEnd : ∀ {command}, isDataLike command = true → isEnd command = false := by
    intro command kind
    cases command <;> first | rfl | cases kind
  cases taken with
  | refused => rfl
  | inTime _ kind _ => exact notEnd kind
  | data _ kind _ => exact notEnd kind
  | sendme _ kind _ => rw [kind]; rfl
  | connected kind _ => rw [kind]; rfl

theorem streamRun_accepted_le {kind : HalfCommand → Bool} {left : HalfEdge → Nat}
    (allowance : Allowance kind left) (evs : List HalfEvent) {half : HalfEdge}
    (counted : Counted kind half) :
    (firstLife (streamRun (some half) evs).2).countP (acceptedOf kind) ≤ left half := by
  induction evs generalizing half with
  | nil => exact Nat.zero_le _
  | cons ev evs ih =>
    rw [streamRun]
    cases ev with
    | close clock conn =>
      have keep : streamStep (some half) (.close clock conn) = (some half, false) := rfl
      rw [keep, firstLife, List.takeWhile_cons_of_pos rfl, List.countP_cons_of_neg Bool.false_ne_true]
      exact ih counted
    | arrive nowUsec cell =>
      have same : streamStep (some half) (.arrive nowUsec cell) = cellStep nowUsec cell half := rfl
      rw [same]
      cases step : cellStep nowUsec cell half with
      | mk after valid =>
        cases after with
        | none =>
          obtain ⟨rfl, ending⟩ := cellStep_none step
          rw [firstLife, List.takeWhile_cons_of_neg]
          · exact Nat.zero_le _
          · simp [acceptedOf, arrives, ending]
        | some half' =>
          have going := cellStep_some step
          have spent := allowance nowUsec cell half half' valid counted step
          have counted' : Counted kind half' := by
            rw [Counted, (cellStep_usedCcontrol step).1]
            exact counted
          have rest := ih counted'
          rw [firstLife, List.takeWhile_cons_of_pos (by simp only [acceptedOf, arrives, going]; rfl),
            List.countP_cons]
          have here : acceptedOf kind (.arrive nowUsec cell, valid) = (valid && kind cell.command) := rfl
          rw [here]
          rw [firstLife] at rest
          simp only at rest ⊢
          omega

/-- Until it is ended, a stream with congestion control accepts data in time alone. -/
theorem streamRun_inTime {half : HalfEdge} (timed : half.usedCcontrol = true)
    (member : (HalfEvent.arrive nowUsec cell, true) ∈ firstLife (streamRun (some half) evs).2)
    (kind : isDataLike cell.command = true) : nowUsec ≤ half.endAckExpectedUsec := by
  induction evs generalizing half with
  | nil => cases member
  | cons ev evs ih =>
    rw [streamRun] at member
    cases ev with
    | close clock conn =>
      have keep : streamStep (some half) (.close clock conn) = (some half, false) := rfl
      rw [keep, firstLife, List.takeWhile_cons_of_pos rfl] at member
      rcases List.mem_cons.mp member with here | later
      · cases here
      · exact ih timed later
    | arrive now other =>
      have same : streamStep (some half) (.arrive now other) = cellStep now other half := rfl
      rw [same] at member
      cases step : cellStep now other half with
      | mk after valid =>
        rw [step] at member
        cases after with
        | none =>
          obtain ⟨rfl, ending⟩ := cellStep_none step
          rw [firstLife, List.takeWhile_cons_of_neg] at member
          · cases member
          · simp [acceptedOf, arrives, ending]
        | some half' =>
          have going := cellStep_some step
          rw [firstLife, List.takeWhile_cons_of_pos
            (by simp only [acceptedOf, arrives, going]; rfl)] at member
          rcases List.mem_cons.mp member with here | later
          · obtain ⟨⟨rfl, rfl⟩, rfl⟩ : (nowUsec = now ∧ cell = other) ∧ valid = true := by
              simpa using here.symm.symm
            have taken := cellStep_taken nowUsec cell half
            rw [step] at taken
            cases taken with
            | inTime _ _ soon => exact soon
            | data fixed _ _ | sendme fixed _ _ => rw [timed] at fixed; cases fixed
            | connected command _ => rw [command] at kind; cases kind
          · obtain ⟨same', until_⟩ := cellStep_usedCcontrol step
            rw [← until_]
            exact ih (same'.trans timed) later

theorem streamRun_events (half : Option HalfEdge) (evs : List HalfEvent) :
    (streamRun half evs).2.map Prod.fst = evs := by
  induction evs generalizing half with
  | nil => rfl
  | cons ev evs ih => rw [streamRun, List.map_cons, ih]

theorem streamRun_none (unclosed : ∀ ev ∈ evs, ∀ clock conn, ev ≠ .close clock conn) :
    ∀ outcome ∈ (streamRun none evs).2, outcome.2 = false := by
  induction evs with
  | nil => exact fun _ member => absurd member List.not_mem_nil
  | cons ev evs ih =>
    cases ev with
    | close clock conn => exact absurd rfl (unclosed _ List.mem_cons_self clock conn)
    | arrive nowUsec cell =>
      intro outcome member
      rcases List.mem_cons.mp member with rfl | later
      · rfl
      · exact ih (fun ev member => unclosed ev (List.mem_cons_of_mem _ member)) outcome later

theorem streamRun_afterEnd {half : Option HalfEdge} {before after : Outcomes}
    {last : HalfEvent × Bool} (split : (streamRun half evs).2 = before ++ last :: after)
    (ended : acceptedOf isEnd last = true)
    (unclosed : ∀ o ∈ after, ∀ clock conn, o.1 ≠ .close clock conn) : ∀ o ∈ after, o.2 = false := by
  induction evs generalizing half before with
  | nil => simp [streamRun] at split
  | cons ev evs ih =>
    rw [streamRun] at split
    cases before with
    | cons first before =>
      rw [List.cons_append, List.cons.injEq] at split
      exact ih split.2
    | nil =>
      rw [List.nil_append, List.cons.injEq] at split
      obtain ⟨rfl, rest⟩ := split
      have gone : (streamStep half ev).1 = none := by
        cases ev with
        | close clock conn => cases ended
        | arrive nowUsec cell =>
          cases half with
          | none => rfl
          | some half =>
            have same : streamStep (some half) (.arrive nowUsec cell) = cellStep nowUsec cell half := rfl
            rw [same] at ended ⊢
            cases step : cellStep nowUsec cell half with
            | mk left valid =>
              rw [step] at ended
              cases left with
              | none => rfl
              | some half' => exact absurd ended (by rw [acceptedOf, arrives, cellStep_some step]; exact Bool.noConfusion)
      rw [gone] at rest
      rw [← rest]
      apply streamRun_none
      intro other member
      rw [← streamRun_events none evs, rest] at member
      obtain ⟨o, inside, rfl⟩ := List.mem_map.mp member
      exact unclosed o inside

end

end RendezMix.Guarantees.HalfStreams
