import RendezMix.Library.Pointwise
import RendezMix.Guarantees.FlowCredit
import RendezMix.Source.EdgePackaging

/-!
# Data from a stream that received an XOFF

A stream that received an XOFF is not read from, and what it still holds is not
packaged, but for two gaps: a circuit SENDME packages what any stream of the
hop holds, and a linked stream may be read from again.
-/
namespace RendezMix.Guarantees.XoffRespected
open Library.Runs Source StreamCircuit FlowCredit PackagingEvent

/-- The cell is of a stream that waits for no XON. -/
def Allowed (circ : StreamCircuit) (cell : DataCell) : Prop :=
  ∀ edge ∈ circ.streams, edge.conn = cell.conn → edge.flow.xoffReceived = false

/-! ## Moves of the streams -/

/-- What no event but XOFF, XON and connecting changes of a stream. -/
def identity (edge : AttachedStream) : Nat × Bool × Bool × Bool × Option StreamHop :=
  (edge.conn, edge.linked, edge.isOpen, edge.flow.xoffReceived, edge.flow.cpathLayer)

/-- A stream that received an XOFF gets no bytes, and is not read from again unless it is
linked. -/
structure EdgeMove (edge edge' : AttachedStream) : Prop where
  same : identity edge' = identity edge
  marked : edge'.markedForClose = false → edge.markedForClose = false
  window : edge'.packageWindow ≤ edge.packageWindow
  leftover : edge.flow.xoffReceived = true → leftover edge' ≤ leftover edge
  reading : edge.flow.xoffReceived = true → edge.linked = false → edge'.flow.reading = true →
    edge.flow.reading = true

variable {edge edge' : AttachedStream}

section

variable (move : EdgeMove edge edge')

include move

theorem EdgeMove.conn : edge'.conn = edge.conn :=
  congrArg (·.1) move.same

theorem EdgeMove.linked : edge'.linked = edge.linked :=
  congrArg (·.2.1) move.same

theorem EdgeMove.isOpen : edge'.isOpen = edge.isOpen :=
  congrArg (·.2.2.1) move.same

theorem EdgeMove.xoff : edge'.flow.xoffReceived = edge.flow.xoffReceived :=
  congrArg (·.2.2.2.1) move.same

theorem EdgeMove.layer : edge'.flow.cpathLayer = edge.flow.cpathLayer :=
  congrArg (·.2.2.2.2) move.same

end

theorem EdgeMove.refl (edge : AttachedStream) : EdgeMove edge edge :=
  ⟨rfl, id, le_refl _, fun _ => le_refl _, fun _ _ reading => reading⟩

theorem EdgeMove.trans {e₁ e₂ e₃ : AttachedStream} (first : EdgeMove e₁ e₂)
    (second : EdgeMove e₂ e₃) : EdgeMove e₁ e₃ := by
  constructor
  · exact second.same.trans first.same
  · exact fun unmarked => first.marked (second.marked unmarked)
  · exact le_trans second.window first.window
  · intro xoff
    exact le_trans (second.leftover (first.xoff.trans xoff)) (first.leftover xoff)
  · intro xoff unlinked reading
    exact first.reading xoff unlinked
      (second.reading (first.xoff.trans xoff) (first.linked.trans unlinked) reading)

theorem connectionStopReading_move (edge : AttachedStream) :
    EdgeMove edge (connectionStopReading edge) := by
  rw [connectionStopReading]
  split
  · exact EdgeMove.refl edge
  · exact ⟨rfl, id, le_refl _, fun _ => le_refl _, fun _ _ reading => nomatch reading⟩

theorem connectionStartReading_move (edge : AttachedStream) :
    EdgeMove edge (connectionStartReading edge) := by
  rw [connectionStartReading]
  split
  · exact EdgeMove.refl edge
  split
  · next linked =>
    exact ⟨rfl, id, le_refl _, fun _ => le_refl _,
      fun _ unlinked => absurd linked (by simp [unlinked])⟩
  split
  · exact EdgeMove.refl edge
  · next clear =>
    exact ⟨rfl, id, le_refl _, fun _ => le_refl _, fun xoff => absurd xoff clear⟩

theorem setEdgeBlocked_move (block : Bool) (streamId : UInt16) (edge : AttachedStream) :
    EdgeMove edge (setEdgeBlocked block streamId edge) := by
  have flagged : EdgeMove edge { edge with edgeBlockedOnCirc := block } :=
    ⟨rfl, id, le_refl _, fun _ => le_refl _, fun _ _ reading => reading⟩
  simp only [setEdgeBlocked]
  split
  · exact EdgeMove.refl edge
  split
  · exact flagged
  split
  · exact flagged.trans (connectionStopReading_move _)
  split
  · exact flagged.trans (connectionStartReading_move _)
  · exact flagged

theorem takeBytesToPackage_move (length : Nat) (edge : AttachedStream) :
    EdgeMove edge (takeBytesToPackage length edge) := by
  rw [takeBytesToPackage]
  split
  · next n optimistic =>
    refine ⟨rfl, id, le_refl _, fun _ => ?_, fun _ _ reading => reading⟩
    simp only [leftover, optimistic]
    split
    · simp
    · simp
  · refine ⟨rfl, id, le_refl _, fun _ => ?_, fun _ _ reading => reading⟩
    simp only [leftover]
    omega

theorem scaleDownIf_waits (near : Bool) (s : EdgeStream) (total : UInt32) :
    { scaleDownIf near s with totalBytesXmit := total }.xoffReceived = s.xoffReceived
      ∧ { scaleDownIf near s with totalBytesXmit := total }.cpathLayer = s.cpathLayer
      ∧ { scaleDownIf near s with totalBytesXmit := total }.reading = s.reading := by
  cases near
  · exact ⟨rfl, rfl, rfl⟩
  · exact ⟨rfl, rfl, rfl⟩

theorem flowControlNoteSentData_waits (len : UInt64) (s : EdgeStream) :
    (flowControlNoteSentData len s).xoffReceived = s.xoffReceived
      ∧ (flowControlNoteSentData len s).cpathLayer = s.cpathLayer
      ∧ (flowControlNoteSentData len s).reading = s.reading :=
  scaleDownIf_waits (s.totalBytesXmit.toUInt64 ≥ totalXmitScaleAt - len) s _

theorem EdgeMove.of_flow {flow : EdgeStream} (xoff : flow.xoffReceived = edge.flow.xoffReceived)
    (layer : flow.cpathLayer = edge.flow.cpathLayer) (reading : flow.reading = edge.flow.reading) :
    EdgeMove edge { edge with flow := flow } := by
  refine ⟨?_, id, le_refl _, fun _ => le_refl _, fun _ _ read => reading.symm.trans read⟩
  simp only [identity, xoff, layer]

theorem noteStreamDataPackaged_move (length : Nat) (edge : AttachedStream) :
    EdgeMove edge (noteStreamDataPackaged length edge).2 := by
  obtain ⟨xoff, layer, reading⟩ := flowControlNoteSentData_waits (UInt64.ofNat length) edge.flow
  rw [noteStreamDataPackaged]
  split
  · exact EdgeMove.of_flow xoff layer reading
  · refine ⟨rfl, id, ?_, fun _ => le_refl _, fun _ _ reading => reading⟩
    simp

theorem markEdge_move (edge : AttachedStream) : EdgeMove edge (markEdge edge) := by
  refine ⟨rfl, fun unmarked => ?_, le_refl _, fun _ => le_refl _, fun _ _ reading => reading⟩
  cases unmarked

/-! ## Moves of the circuit -/

/-- The streams move, and every cell that is packaged is allowed. -/
structure Moves (circ circ' : StreamCircuit) : Prop where
  streams : List.Forall₂ EdgeMove circ.streams circ'.streams
  sent : ∃ cells, circ'.sent = circ.sent ++ cells ∧ ∀ cell ∈ cells, Allowed circ cell

variable {circ circ' : StreamCircuit} {env : PackagingEnv} {conn : Nat} {packagePartial : Bool}

theorem Moves.quiet (streams : List.Forall₂ EdgeMove circ.streams circ'.streams)
    (sent : circ'.sent = circ.sent) : Moves circ circ' :=
  ⟨streams, [], by rw [sent, List.append_nil], by simp⟩

theorem Moves.of_streams (streams : circ'.streams = circ.streams)
    (sent : circ'.sent = circ.sent) : Moves circ circ' := by
  apply Moves.quiet _ sent
  rw [streams]
  exact List.forall₂_same.mpr fun edge _ => EdgeMove.refl edge

theorem Moves.refl (circ : StreamCircuit) : Moves circ circ := Moves.of_streams rfl rfl

section

variable {layerHint : Option StreamHop} {f : AttachedStream → AttachedStream}

theorem Moves.of_map (moves : ∀ edge ∈ circ.streams, EdgeMove edge (f edge))
    (streams : circ'.streams = circ.streams.map f) (sent : circ'.sent = circ.sent) :
    Moves circ circ' := by
  apply Moves.quiet _ sent
  rw [streams]
  exact Library.Pointwise.of_map moves

theorem Allowed.before {cell : DataCell}
    (streams : List.Forall₂ EdgeMove circ.streams circ'.streams) (allowed : Allowed circ' cell) :
    Allowed circ cell := by
  intro edge member same
  obtain ⟨edge', member', move⟩ := Library.Pointwise.after streams member
  rw [← move.xoff]
  exact allowed edge' member' (move.conn.trans same)

theorem Moves.trans {circ'' : StreamCircuit} (first : Moves circ circ')
    (second : Moves circ' circ'') : Moves circ circ'' := by
  obtain ⟨early, sent₁, allowed₁⟩ := first.sent
  obtain ⟨late, sent₂, allowed₂⟩ := second.sent
  constructor
  · exact Library.Pointwise.trans (fun _ _ _ => EdgeMove.trans) first.streams second.streams
  · refine ⟨early ++ late, by rw [sent₂, sent₁, List.append_assoc], ?_⟩
    intro cell member
    rcases List.mem_append.mp member with here | there
    · exact allowed₁ cell here
    · exact (allowed₂ cell there).before first.streams

section

variable {length : Nat}

theorem updateEdge_moves
    (moves : ∀ edge ∈ circ.streams, edge.conn = conn → EdgeMove edge (f edge)) :
    Moves circ (circ.updateEdge conn f) := by
  apply Moves.of_map (f := fun edge => if edge.conn = conn then f edge else edge)
  · intro edge member
    split
    · next same => exact moves edge member same
    · exact EdgeMove.refl edge
  · rfl
  · rfl

theorem stopEdgeReading_moves (layerHint : Option StreamHop) (circ : StreamCircuit) :
    Moves circ (circ.stopEdgeReading layerHint) := by
  have stops (edge : AttachedStream) : EdgeMove edge
      (if layerHint = none ∨ edge.flow.cpathLayer = layerHint then connectionStopReading edge
        else edge) := by
    split
    · exact connectionStopReading_move edge
    · exact EdgeMove.refl edge
  exact Moves.of_map (fun edge _ => stops edge) rfl rfl

theorem considerStopEdgeReading_moves (layerHint : Option StreamHop) (circ : StreamCircuit) :
    Moves circ (circ.considerStopEdgeReading layerHint).2 := by
  rw [considerStopEdgeReading]
  split
  · exact stopEdgeReading_moves layerHint circ
  · exact Moves.refl circ

theorem setBlocked_moves (block : Bool) (streamId : UInt16) (circ : StreamCircuit) :
    Moves circ (circ.setBlocked block streamId) :=
  Moves.of_map (fun edge _ => setEdgeBlocked_move block streamId edge) rfl rfl

theorem appendCell_moves (env : PackagingEnv) (streamId : UInt16) (circ : StreamCircuit) :
    Moves circ (appendCell env streamId circ) := by
  rw [appendCell]
  split
  · exact Moves.refl circ
  split
  · exact Moves.of_streams rfl rfl
  have queued : Moves circ (if env.delays circ = true then
      { circ with delayLen := circ.delayLen + 1 } else
      { circ with queueLen := circ.queueLen + 1 }) := by
    split
    · exact Moves.of_streams rfl rfl
    · exact Moves.of_streams rfl rfl
  dsimp only
  generalize (if env.delays circ = true then { circ with delayLen := circ.delayLen + 1 } else
    { circ with queueLen := circ.queueLen + 1 }) = enqueued at queued ⊢
  split
  · exact queued.trans (Moves.of_streams rfl rfl)
  split
  · exact queued.trans (setBlocked_moves true 0 _)
  split
  · exact queued.trans (setBlocked_moves true streamId _)
  · exact queued

theorem countRandomness_same (env : PackagingEnv) (length : Nat) (circ : StreamCircuit) :
    (circ.countRandomness env length).streams = circ.streams
      ∧ (circ.countRandomness env length).sent = circ.sent := by
  simp only [countRandomness]
  split
  · exact ⟨rfl, rfl⟩
  · exact ⟨rfl, rfl⟩

/-! ## Packaging from a stream that may send or has nothing -/

/-- The stream waits for no XON, or holds nothing. -/
def Clear (circ : StreamCircuit) (conn : Nat) : Prop :=
  (∀ edge ∈ circ.streams, edge.conn = conn → edge.flow.xoffReceived = false)
    ∨ ∀ edge ∈ circ.streams, edge.conn = conn →
      edge.flow.xoffReceived = true ∧ leftover edge = 0

theorem Clear.after (clear : Clear circ conn) (moves : Moves circ circ') : Clear circ' conn := by
  rcases clear with free | empty
  · left
    intro edge' member same
    obtain ⟨edge, inside, move⟩ := Library.Pointwise.before moves.streams member
    rw [move.xoff]
    exact free edge inside (move.conn.symm.trans same)
  · right
    intro edge' member same
    obtain ⟨edge, inside, move⟩ := Library.Pointwise.before moves.streams member
    obtain ⟨xoff, nothing⟩ := empty edge inside (move.conn.symm.trans same)
    have less := move.leftover xoff
    exact ⟨move.xoff.trans xoff, by omega⟩

theorem edge_mem (found : circ.edge conn = some edge) : edge ∈ circ.streams ∧ edge.conn = conn := by
  have holds := List.find?_some found
  exact ⟨List.mem_of_find?_eq_some found, by simpa using holds⟩

theorem Clear.allowed (clear : Clear circ conn) (found : circ.edge conn = some edge)
    {packagePartial : Bool}
    (packaged : circ.inbufBytesToPackage (bytesToProcess edge) packagePartial ≠ 0) :
    Allowed circ ⟨edge.conn, length⟩ := by
  obtain ⟨member, same⟩ := edge_mem found
  rcases clear with free | empty
  · intro other inside equal
    exact free other inside (equal.trans same)
  · obtain ⟨_, nothing⟩ := empty edge member same
    have none : bytesToProcess edge = 0 := by
      simp only [leftover] at nothing
      rw [bytesToProcess]
      split
      · next n optimistic =>
        rw [optimistic, Option.getD_some] at nothing
        omega
      · omega
    exfalso
    apply packaged
    rw [none, inbufBytesToPackage]
    have size : randomSendmesLength = 478 := rfl
    have full : relayPayloadSize = 498 := rfl
    split
    · rw [if_neg (by omega)]
      split <;> rfl
    · rw [if_neg (by omega)]
      split <;> rfl

/-- The circuit that a round of packaging leaves. -/
def circuitOf : Packaged → StreamCircuit
  | .done _ circ => circ
  | .again circ => circ

theorem sendDataCommand_moves {streamEdge : AttachedStream}
    (allowed : Allowed circ ⟨streamEdge.conn, length⟩)
    (sent : sendDataCommand env streamEdge length circ = some circ') : Moves circ circ' := by
  rw [sendDataCommand] at sent
  split at sent
  · cases sent
  rw [Option.some.injEq] at sent
  subst sent
  have logged : Moves circ { circ with sent := circ.sent ++ [⟨streamEdge.conn, length⟩] } := by
    constructor
    · exact List.forall₂_same.mpr fun edge _ => EdgeMove.refl edge
    · refine ⟨[⟨streamEdge.conn, length⟩], rfl, ?_⟩
      intro cell member
      rw [List.mem_singleton.mp member]
      exact allowed
  exact logged.trans (appendCell_moves env _ _)

theorem noteCellSent_moves (cpath : Option StreamHop) (circ : StreamCircuit) :
    Moves circ (circ.noteCellSent cpath) :=
  Moves.of_streams rfl rfl

theorem packageCell_moves (env : PackagingEnv) (allowed : Allowed circ ⟨edge.conn, length⟩) :
    Moves circ (circuitOf (circ.packageCell env edge length)) := by
  have counted := countRandomness_same env length circ
  have taken : Moves circ
      ((circ.countRandomness env length).updateEdge edge.conn (takeBytesToPackage length)) :=
    (Moves.of_streams counted.1 counted.2).trans
      (updateEdge_moves fun other _ _ => takeBytesToPackage_move length other)
  have waits : ∀ cell, Allowed circ cell → Allowed ((circ.countRandomness env length).updateEdge
      edge.conn (takeBytesToPackage length)) cell := by
    intro cell free other member same
    obtain ⟨earlier, inside, move⟩ := Library.Pointwise.before taken.streams member
    rw [move.xoff]
    exact free earlier inside (move.conn.symm.trans same)
  rw [packageCell]
  generalize (circ.countRandomness env length).updateEdge edge.conn (takeBytesToPackage length)
    = takenCirc at taken waits ⊢
  cases sent : sendDataCommand env edge length takenCirc with
  | none => exact taken
  | some appended =>
    have delivered := (taken.trans (sendDataCommand_moves (waits _ allowed) sent)).trans
      (noteCellSent_moves edge.flow.cpathLayer appended)
    have reported (before : StreamCircuit) : Moves before
        (before.updateEdge edge.conn fun other => (noteStreamDataPackaged length other).2) :=
      updateEdge_moves fun other _ _ => noteStreamDataPackaged_move length other
    have noted := delivered.trans (reported _)
    dsimp only
    split
    · exact noted.trans ((updateEdge_moves fun other _ _ => connectionStopReading_move other).trans
        (considerStopEdgeReading_moves _ _))
    · exact noted

end

theorem packageRound_moves (env : PackagingEnv) (packagePartial : Bool)
    (clear : Clear circ conn) :
    Moves circ (circuitOf (packageRound env conn packagePartial circ)) := by
  rw [packageRound]
  cases found : circ.edge conn with
  | none => exact Moves.refl circ
  | some edge =>
    dsimp only
    split
    · exact considerStopEdgeReading_moves _ circ
    split
    · exact updateEdge_moves fun edge _ _ => connectionStopReading_move edge
    split
    · exact Moves.refl circ
    · next packaged => exact packageCell_moves env (clear.allowed found packaged)

theorem packageRounds_moves (env : PackagingEnv) (packagePartial : Bool) (rounds : Nat)
    (maxCells : Option Int) (clear : Clear circ conn) :
    Moves circ (packageRounds env conn packagePartial rounds maxCells circ).2.2 := by
  induction rounds generalizing maxCells circ with
  | zero => exact Moves.refl circ
  | succ rounds ih =>
    have once := packageRound_moves env packagePartial clear
    rw [packageRounds]
    cases outcome : packageRound env conn packagePartial circ with
    | done ret after =>
      rw [outcome] at once
      exact once
    | again after =>
      rw [outcome] at once
      dsimp only
      split
      · exact once
      · exact once.trans (ih _ (clear.after once))

theorem packageRawInbuf_moves (env : PackagingEnv) (packagePartial : Bool)
    (maxCells : Option Int) (clear : Clear circ conn) :
    Moves circ (circ.packageRawInbuf env conn packagePartial maxCells).2.2 := by
  rw [packageRawInbuf]
  cases circ.edge conn with
  | none => exact Moves.refl circ
  | some edge =>
    dsimp only
    split
    · exact Moves.refl circ
    split
    · exact Moves.refl circ
    · exact packageRounds_moves env packagePartial _ maxCells clear

theorem markEdge_moves (conn : Nat) (circ : StreamCircuit) :
    Moves circ (circ.updateEdge conn markEdge) :=
  updateEdge_moves fun edge _ _ => markEdge_move edge

theorem packageOrClose_moves (env : PackagingEnv) (packagePartial : Bool)
    (clear : Clear circ conn) : Moves circ (circ.packageOrClose env conn packagePartial).2 := by
  have packaged := packageRawInbuf_moves env packagePartial none clear
  rw [packageOrClose]
  dsimp only
  split
  · exact packaged.trans (markEdge_moves conn _)
  · exact packaged

theorem processInbuf_moves (env : PackagingEnv) (packagePartial : Bool)
    (clear : Clear circ conn) : Moves circ (circ.processInbuf env conn packagePartial).2 := by
  rw [processInbuf]
  split
  · exact packageOrClose_moves env packagePartial clear
  · exact Moves.refl circ

theorem handleRead_moves (env : PackagingEnv) (sizes : List Nat)
    (free : ∀ edge ∈ circ.streams, edge.conn = conn → edge.flow.xoffReceived = false) :
    Moves circ (circ.handleRead env conn sizes) := by
  induction sizes generalizing circ with
  | nil => exact processInbuf_moves env true (Or.inl free)
  | cons n rest ih =>
    have filled : Moves circ
        (circ.updateEdge conn fun edge => { edge with inbuf := edge.inbuf + n }) := by
      apply updateEdge_moves
      intro edge member same
      have waits := free edge member same
      exact ⟨rfl, id, le_refl _, fun xoff => absurd xoff (by simp [waits]),
        fun _ _ reading => reading⟩
    have stays (after : StreamCircuit) (moved : Moves circ after) :
        ∀ edge ∈ after.streams, edge.conn = conn → edge.flow.xoffReceived = false := by
      intro edge' member same
      obtain ⟨edge, inside, move⟩ := Library.Pointwise.before moved.streams member
      rw [move.xoff]
      exact free edge inside (move.conn.symm.trans same)
    have first := filled.trans (processInbuf_moves env false (Or.inl (stays _ filled)))
    rw [handleRead]
    dsimp only
    split
    · exact first
    split
    · exact first.trans (ih (stays _ first))
    · exact first.trans (processInbuf_moves env true (Or.inl (stays _ first)))

/-! ## A circuit SENDME -/

/-- The loop over the streams considers the stream. -/
def Considered (layerHint : Option StreamHop) (edge : AttachedStream) : Prop :=
  edge.markedForClose = false ∧ 0 < edge.packageWindow
    ∧ (layerHint = none ∨ edge.flow.cpathLayer = layerHint)

instance (layerHint : Option StreamHop) (edge : AttachedStream) :
    Decidable (Considered layerHint edge) := instDecidableAnd

/-- No stream that the loop considers waits for an XON with something left to package. -/
def NothingLeft (layerHint : Option StreamHop) (circ : StreamCircuit) : Prop :=
  ∀ edge ∈ circ.streams, Considered layerHint edge → edge.flow.xoffReceived = true →
    leftover edge = 0

instance (layerHint : Option StreamHop) (circ : StreamCircuit) :
    Decidable (NothingLeft layerHint circ) :=
  inferInstanceAs (Decidable (∀ edge ∈ circ.streams, _))

theorem NothingLeft.after (nothing : NothingLeft layerHint circ) (moves : Moves circ circ') :
    NothingLeft layerHint circ' := by
  intro edge' member considered xoff
  obtain ⟨edge, inside, move⟩ := Library.Pointwise.before moves.streams member
  have waits : edge.flow.xoffReceived = true := move.xoff.symm.trans xoff
  have before : Considered layerHint edge := by
    refine ⟨move.marked considered.1, lt_of_lt_of_le considered.2.1 move.window, ?_⟩
    rw [← move.layer]
    exact considered.2.2
  have less := move.leftover waits
  rw [nothing edge inside before waits] at less
  exact Nat.le_zero.mp less

/-- No two streams are the same connection. -/
def Apart (circ : StreamCircuit) : Prop := (circ.streams.map AttachedStream.conn).Nodup

theorem Apart.after (apart : Apart circ) (moves : Moves circ circ') : Apart circ' := by
  have same : circ'.streams.map AttachedStream.conn = circ.streams.map AttachedStream.conn :=
    Library.Pointwise.map_key (fun _ _ move => EdgeMove.conn move) moves.streams
  rw [Apart, same]
  exact apart

theorem Apart.eq_of_conn (apart : Apart circ) {other : AttachedStream}
    (member : edge ∈ circ.streams) (inside : other ∈ circ.streams)
    (same : other.conn = edge.conn) : other = edge :=
  List.inj_on_of_nodup_map apart inside member same

theorem NothingLeft.clear (nothing : NothingLeft layerHint circ) (apart : Apart circ)
    (found : circ.edge conn = some edge) (considered : Considered layerHint edge) :
    Clear circ conn := by
  obtain ⟨member, same⟩ := edge_mem found
  have only : ∀ other ∈ circ.streams, other.conn = conn → other = edge := fun other inside equal =>
    apart.eq_of_conn member inside (equal.trans same.symm)
  by_cases xoff : edge.flow.xoffReceived = true
  · right
    intro other inside equal
    rw [only other inside equal]
    exact ⟨xoff, nothing edge member considered xoff⟩
  · left
    intro other inside equal
    rw [only other inside equal]
    simpa using xoff

theorem resumeRound_moves (env : PackagingEnv) (cellsPerConn : Int) (conns : List Nat)
    (packaged left : Int) (nothing : NothingLeft layerHint circ) (apart : Apart circ) :
    Moves circ (resumeRound env layerHint cellsPerConn conns circ packaged left).1 := by
  induction conns generalizing circ packaged left with
  | nil => exact Moves.refl circ
  | cons conn rest ih =>
    rw [resumeRound]
    cases found : circ.edge conn with
    | none => exact ih packaged left nothing apart
    | some edge =>
      dsimp only
      split
      · exact ih packaged left nothing apart
      next open' =>
      split
      · next here =>
        have considered : Considered layerHint edge := by
          rw [not_or, not_le] at open'
          exact ⟨by simpa using open'.1, open'.2, here⟩
        have once := packageRawInbuf_moves env true (some cellsPerConn)
          (nothing.clear apart found considered)
        split
        · have closed := once.trans (markEdge_moves conn _)
          exact closed.trans (ih _ _ (nothing.after closed) (apart.after closed))
        · have stopped := once.trans (considerStopEdgeReading_moves layerHint _)
          split
          · exact stopped
          · exact stopped.trans (ih _ _ (nothing.after stopped) (apart.after stopped))
      · exact ih packaged left nothing apart

theorem resumeRounds_moves (env : PackagingEnv) (rounds : Nat) (most streams : Int)
    (nothing : NothingLeft layerHint circ) (apart : Apart circ) :
    Moves circ (resumeRounds env layerHint rounds most streams circ) := by
  induction rounds generalizing circ most streams with
  | zero => exact Moves.refl circ
  | succ rounds ih =>
    have once := resumeRound_moves env (ceilDiv most streams)
      (circ.streams.map AttachedStream.conn) 0 0 nothing apart
    rw [resumeRounds]
    dsimp only
    split
    · exact once
    split
    · exact once.trans (ih _ _ (nothing.after once) (apart.after once))
    · exact once

theorem ceilDiv_nonpos {most : Int} {streams : Nat} (none : most ≤ 0) (any : streams ≠ 0) :
    ceilDiv most streams ≤ 0 := by
  have positive := Nat.pos_of_ne_zero any
  rw [ceilDiv]
  by_cases low : most + ((streams : Int) - 1) ≤ 0
  · have flipped := Int.neg_tdiv (most + ((streams : Int) - 1)) streams
    have nonneg := Int.tdiv_nonneg (a := -(most + ((streams : Int) - 1))) (b := streams)
      (by omega) (by omega)
    omega
  · rw [Int.tdiv_eq_zero_of_lt (by omega) (by omega)]

theorem packageRawInbuf_none (env : PackagingEnv) (conn : Nat) (packagePartial : Bool)
    {maxCells : Int} (none : maxCells ≤ 0) (circ : StreamCircuit) :
    circ.packageRawInbuf env conn packagePartial (some maxCells) = (0, some maxCells, circ) := by
  rw [packageRawInbuf]
  cases circ.edge conn with
  | none => rfl
  | some edge =>
    have full : ∃ n ∈ some maxCells, n ≤ 0 := ⟨maxCells, rfl, none⟩
    dsimp only
    rw [if_pos full]
    split <;> rfl

/-- A round in which no stream may package a cell. -/
theorem resumeRound_none (env : PackagingEnv) (layerHint : Option StreamHop) {cellsPerConn : Int}
    (none : cellsPerConn ≤ 0) (conns : List Nat) (packaged left : Int) (circ : StreamCircuit) :
    Moves circ (resumeRound env layerHint cellsPerConn conns circ packaged left).1
      ∧ (resumeRound env layerHint cellsPerConn conns circ packaged left).2.1 = packaged := by
  induction conns generalizing circ left with
  | nil => exact ⟨Moves.refl circ, rfl⟩
  | cons conn rest ih =>
    rw [resumeRound]
    cases circ.edge conn with
    | none => exact ih left circ
    | some edge =>
      have zero : packaged + (cellsPerConn - (some cellsPerConn).getD 0) = packaged := by
        rw [Option.getD_some]
        omega
      dsimp only
      rw [packageRawInbuf_none env conn true none]
      rw [zero, if_neg (lt_irrefl (0 : Int))]
      split
      · exact ih left circ
      split
      · have stopped := considerStopEdgeReading_moves layerHint circ
        split
        · exact ⟨stopped, rfl⟩
        · have rest := ih (if ∃ e ∈ circ.edge conn, 0 < e.inbuf then left + 1 else left)
            (circ.considerStopEdgeReading layerHint).2
          exact ⟨stopped.trans rest.1, rest.2⟩
      · exact ih left circ

/-- The SENDME lets a cell be packaged: the streams are not blocked, the window and the queue
have room, and a stream that may be resumed has bytes on its inbuf. -/
def MayPackage (env : PackagingEnv) (layerHint : Option StreamHop) (circ : StreamCircuit) : Prop :=
  circ.streamsBlocked = false ∧ 0 < circ.maxToPackage env layerHint
    ∧ ∃ edge ∈ circ.streams, resumable layerHint edge = true ∧ 0 < edge.inbuf

instance (env : PackagingEnv) (layerHint : Option StreamHop) (circ : StreamCircuit) :
    Decidable (MayPackage env layerHint circ) :=
  instDecidableAnd

theorem resumeEdgeReading_moves {env : PackagingEnv}
    (nothing : MayPackage env layerHint circ → NothingLeft layerHint circ) (apart : Apart circ) :
    Moves circ (circ.resumeEdgeReading env layerHint) := by
  rw [resumeEdgeReading]
  split
  · exact Moves.refl circ
  next unblocked =>
  have starts (edge : AttachedStream) : EdgeMove edge
      (if resumable layerHint edge then connectionStartReading edge else edge) := by
    split
    · exact connectionStartReading_move edge
    · exact EdgeMove.refl edge
  have started : Moves circ (circ.startResumable layerHint) :=
    Moves.of_map (fun edge _ => starts edge) rfl rfl
  rw [resumeEdgeReadingHelper]
  split
  · exact started
  next any =>
  by_cases room : 0 < circ.maxToPackage env layerHint
  · have may : MayPackage env layerHint circ := by
      obtain ⟨edge, member, both⟩ := List.countP_pos_iff.mp (Nat.pos_of_ne_zero any)
      rw [Bool.and_eq_true, decide_eq_true_eq] at both
      exact ⟨by simpa using unblocked, room, edge, member, both⟩
    exact started.trans (resumeRounds_moves env _ _ _ ((nothing may).after started)
      (apart.after started))
  · rw [resumeRounds]
    dsimp only
    have none := resumeRound_none env layerHint (ceilDiv_nonpos (le_of_not_gt room) any)
    split
    · exact started.trans (none _ _ _ _).1
    · rw [if_neg (fun more => more.1 (none _ _ _ _).2)]
      exact started.trans (none _ _ _ _).1

/-! ## The events -/

/-- What holds of the streams that received an XOFF. -/
structure Halted (circ : StreamCircuit) : Prop where
  apart : Apart circ
  stopped : ∀ edge ∈ circ.streams, edge.flow.xoffReceived = true → edge.linked = false →
    edge.flow.reading = false
  isOpen : ∀ edge ∈ circ.streams, edge.flow.xoffReceived = true → edge.isOpen = true

theorem Halted.after (halted : Halted circ) (moves : Moves circ circ') : Halted circ' := by
  constructor
  · exact halted.apart.after moves
  · intro edge' member xoff unlinked
    obtain ⟨edge, inside, move⟩ := Library.Pointwise.before moves.streams member
    have waits := move.xoff.symm.trans xoff
    have single := move.linked.symm.trans unlinked
    have idle := halted.stopped edge inside waits single
    by_contra reading
    have read := move.reading waits single (by simpa using reading)
    rw [idle] at read
    cases read
  · intro edge' member xoff
    obtain ⟨edge, inside, move⟩ := Library.Pointwise.before moves.streams member
    exact move.isOpen.trans (halted.isOpen edge inside (move.xoff.symm.trans xoff))

theorem Apart.found (apart : Apart circ) (found : circ.edge conn = some edge) :
    ∀ other ∈ circ.streams, other.conn = conn → other = edge := by
  obtain ⟨member, same⟩ := edge_mem found
  exact fun other inside equal => apart.eq_of_conn member inside (equal.trans same.symm)

/-- The cells that a step packages are of streams that wait for no XON. -/
def Respects (circ circ' : StreamCircuit) : Prop :=
  ∀ cell ∈ circ'.sent.drop circ.sent.length, Allowed circ cell

theorem Moves.respects (moves : Moves circ circ') : Respects circ circ' := by
  obtain ⟨cells, sent, allowed⟩ := moves.sent
  intro cell member
  rw [sent, List.drop_left] at member
  exact allowed cell member

theorem Respects.of_sent (sent : circ'.sent = circ.sent) : Respects circ circ' := by
  intro cell member
  rw [sent, List.drop_length] at member
  cases member

theorem Respects.before {circ'' : StreamCircuit} (respects : Respects circ' circ'')
    (sent : circ'.sent = circ.sent)
    (streams : ∀ edge ∈ circ.streams, ∃ edge' ∈ circ'.streams,
      edge'.conn = edge.conn ∧ edge'.flow.xoffReceived = edge.flow.xoffReceived) :
    Respects circ circ'' := by
  intro cell member edge inside same
  rw [← sent] at member
  obtain ⟨edge', inside', conn, xoff⟩ := streams edge inside
  rw [← xoff]
  exact respects cell member edge' inside' (conn.trans same)

theorem mem_updateEdge (member : edge' ∈ (circ.updateEdge conn f).streams) :
    ∃ edge ∈ circ.streams, edge' = if edge.conn = conn then f edge else edge := by
  obtain ⟨edge, inside, same⟩ := List.mem_map.mp member
  exact ⟨edge, inside, same.symm⟩

theorem Halted.update (halted : Halted circ) (conns : ∀ edge, (f edge).conn = edge.conn)
    (kept : ∀ edge ∈ circ.streams, edge.conn = conn → (f edge).flow.xoffReceived = true →
      ((f edge).linked = false → (f edge).flow.reading = false) ∧ (f edge).isOpen = true) :
    Halted (circ.updateEdge conn f) := by
  constructor
  · have same : (circ.updateEdge conn f).streams.map AttachedStream.conn
        = circ.streams.map AttachedStream.conn := by
      rw [updateEdge, List.map_map]
      apply List.map_congr_left
      intro edge _
      simp only [Function.comp]
      split
      · exact conns edge
      · rfl
    rw [Apart, same]
    exact halted.apart
  · intro edge' member xoff unlinked
    obtain ⟨edge, inside, rfl⟩ := mem_updateEdge member
    by_cases here : edge.conn = conn
    · rw [if_pos here] at xoff unlinked ⊢
      exact (kept edge inside here xoff).1 unlinked
    · rw [if_neg here] at xoff unlinked ⊢
      exact halted.stopped edge inside xoff unlinked
  · intro edge' member xoff
    obtain ⟨edge, inside, rfl⟩ := mem_updateEdge member
    by_cases here : edge.conn = conn
    · rw [if_pos here] at xoff ⊢
      exact (kept edge inside here xoff).2
    · rw [if_neg here] at xoff ⊢
      exact halted.isOpen edge inside xoff

end

theorem circuitProcessStreamXoff_stops (p : FlowParams) (layerHint : Option StreamHop)
    (flow : EdgeStream) :
    (circuitProcessStreamXoff p layerHint flow).2 = flow
      ∨ (circuitProcessStreamXoff p layerHint flow).2.reading = false := by
  rw [circuitProcessStreamXoff]
  split
  · exact Or.inl rfl
  split
  · exact Or.inl rfl
  split
  · exact Or.inl rfl
  · exact Or.inr rfl

theorem circuitProcessStreamXon_clears (p : FlowParams) (layerHint : Option StreamHop)
    (payload : List UInt8) (flow : EdgeStream) :
    (circuitProcessStreamXon p layerHint payload flow).2 = flow
      ∨ (circuitProcessStreamXon p layerHint payload flow).2.xoffReceived = false := by
  rw [circuitProcessStreamXon]
  split
  · exact Or.inl rfl
  split
  · exact Or.inl rfl
  split
  · exact Or.inl rfl
  · exact Or.inr rfl

/-- No linked stream is read from while it waits for an XON, and a SENDME that lets cells be
packaged finds nothing left on the streams of its hop that wait for one. -/
def Spares (x : Transition StreamCircuit (PackagingEnv × PackagingEvent)) : Prop :=
  match x.input.2 with
  | .read conn _ => ∀ edge ∈ x.pre.streams, edge.conn = conn → edge.linked = true →
      edge.flow.xoffReceived = false
  | .sendme layerHint window =>
    let circ := x.pre.setWindow layerHint window
    MayPackage x.input.1 layerHint circ → NothingLeft layerHint circ
  | _ => True

instance (x : Transition StreamCircuit (PackagingEnv × PackagingEvent)) : Decidable (Spares x) := by
  unfold Spares
  split <;> infer_instance

variable {p : FlowParams}

section

variable (halted : Halted circ)

include halted

theorem Halted.moves (moves : Moves circ circ') : Respects circ circ' ∧ Halted circ' :=
  ⟨moves.respects, halted.after moves⟩

theorem Halted.attach (enabled : (attach edge).Enabled circ) :
    Respects circ (circ.handle env p (.attach edge))
      ∧ Halted (circ.handle env p (.attach edge)) := by
  obtain ⟨fresh, free, _⟩ := enabled
  let attached := { circ with streams := edge :: circ.streams }
  have held : Halted attached := by
    constructor
    · exact List.nodup_cons.mpr ⟨fresh, halted.apart⟩
    · intro other member xoff
      rcases List.mem_cons.mp member with rfl | earlier
      · exact absurd xoff (by simp [free])
      · exact halted.stopped other earlier xoff
    · intro other member xoff
      rcases List.mem_cons.mp member with rfl | earlier
      · exact absurd xoff (by simp [free])
      · exact halted.isOpen other earlier xoff
  have same : ∀ other ∈ circ.streams, ∃ other' ∈ attached.streams,
      other'.conn = other.conn ∧ other'.flow.xoffReceived = other.flow.xoffReceived :=
    fun other member => ⟨other, List.mem_cons_of_mem _ member, rfl, rfl⟩
  have clear : Clear attached edge.conn := by
    left
    intro other member equal
    rw [held.apart.eq_of_conn List.mem_cons_self member equal]
    exact free
  rw [handle]
  split
  · have moves := packageOrClose_moves env true clear
    exact ⟨moves.respects.before rfl same, held.after moves⟩
  · exact ⟨Respects.of_sent rfl, held⟩

theorem Halted.connected (enabled : (connected conn).Enabled circ) :
    Respects circ (circ.handle env p (.connected conn))
      ∧ Halted (circ.handle env p (.connected conn)) := by
  obtain ⟨edge, found, closed⟩ := enabled
  have only := halted.apart.found found
  have free : ∀ other ∈ circ.streams, other.conn = conn → other.flow.xoffReceived = false := by
    intro other member same
    by_contra xoff
    have opened := halted.isOpen other member (by simpa using xoff)
    rw [only other member same, closed] at opened
    cases opened
  let opened := circ.updateEdge conn fun edge => { edge with isOpen := true }
  have held : Halted opened := by
    refine halted.update (fun _ => rfl) fun other member same xoff => ?_
    exact absurd xoff (by simp [free other member same])
  have same : ∀ other ∈ circ.streams, ∃ other' ∈ opened.streams,
      other'.conn = other.conn ∧ other'.flow.xoffReceived = other.flow.xoffReceived := by
    intro other member
    refine ⟨_, List.mem_map_of_mem member, ?_, ?_⟩
    · split <;> rfl
    · split <;> rfl
  have clear : Clear opened conn := by
    left
    intro other member equal
    obtain ⟨earlier, inside, rfl⟩ := mem_updateEdge member
    by_cases here : earlier.conn = conn
    · rw [if_pos here]
      exact free earlier inside here
    · rw [if_neg here] at equal
      exact absurd equal here
  rw [handle]
  split
  · have moves := packageOrClose_moves env true clear
    exact ⟨moves.respects.before rfl same, held.after moves⟩
  · have moves : Moves opened (opened.updateEdge conn connectionStartReading) :=
      updateEdge_moves fun other _ _ => connectionStartReading_move other
    exact ⟨moves.respects.before rfl same, held.after moves⟩

theorem Halted.read {sizes : List Nat} (enabled : (read conn sizes).Enabled circ)
    (single : ∀ edge ∈ circ.streams, edge.conn = conn → edge.linked = true →
      edge.flow.xoffReceived = false) :
    Respects circ (circ.handle env p (.read conn sizes))
      ∧ Halted (circ.handle env p (.read conn sizes)) := by
  obtain ⟨_, edge, found, reading, _⟩ := enabled
  have only := halted.apart.found found
  apply halted.moves
  apply handleRead_moves
  intro other member same
  by_contra xoff
  cases linked : other.linked with
  | true => exact xoff (single other member same linked)
  | false =>
    have idle := halted.stopped other member (by simpa using xoff) linked
    rw [only other member same, reading] at idle
    cases idle

theorem Halted.xoff {layerHint : Option StreamHop}
    (enabled : (xoff conn layerHint).Enabled circ) :
    Halted (circ.handle env p (.xoff conn layerHint)) := by
  obtain ⟨edge, found, opened⟩ := enabled
  have only := halted.apart.found found
  refine halted.update (fun _ => rfl) fun other member same xoff => ?_
  have isOpen : other.isOpen = true := by
    rw [only other member same]
    exact opened
  refine ⟨fun unlinked => ?_, isOpen⟩
  rcases circuitProcessStreamXoff_stops p layerHint other.flow with kept | stopped
  · simp only [kept] at xoff ⊢
    exact halted.stopped other member xoff unlinked
  · exact stopped

theorem Halted.xon {layerHint : Option StreamHop} {payload : List UInt8} :
    Halted (circ.handle env p (.xon conn layerHint payload)) := by
  refine halted.update (fun _ => rfl) fun other member same xoff => ?_
  rcases circuitProcessStreamXon_clears p layerHint payload other.flow with kept | cleared
  · simp only [kept] at xoff ⊢
    exact ⟨halted.stopped other member xoff, halted.isOpen other member xoff⟩
  · simp only [cleared] at xoff
    cases xoff

theorem Halted.detach : Halted (circ.handle env p (.detach conn)) := by
  constructor
  · exact halted.apart.sublist (List.filter_sublist.map _)
  · intro edge member
    exact halted.stopped edge (List.mem_of_mem_filter member)
  · intro edge member
    exact halted.isOpen edge (List.mem_of_mem_filter member)

theorem Halted.step {e : PackagingEvent} (step : PackagingStep p circ (env, e) circ')
    (spares : Spares ⟨circ, (env, e), circ'⟩) : Respects circ circ' ∧ Halted circ' := by
  obtain ⟨enabled, taken⟩ := step
  subst taken
  cases e with
  | attach edge => exact halted.attach enabled
  | detach conn => exact ⟨Respects.of_sent rfl, halted.detach⟩
  | connected conn => exact halted.connected enabled
  | read conn sizes => exact halted.read enabled spares
  | reenable conn =>
    exact halted.moves (updateEdge_moves fun edge _ _ => connectionStartReading_move edge)
  | xoff conn layerHint => exact ⟨Respects.of_sent rfl, halted.xoff enabled⟩
  | xon conn layerHint payload => exact ⟨Respects.of_sent rfl, halted.xon⟩
  | sendme layerHint window =>
    have window' : Moves circ (circ.setWindow layerHint window) := Moves.of_streams rfl rfl
    exact halted.moves (window'.trans (resumeEdgeReading_moves spares
      (halted.apart.after window')))
  | flush =>
    have flushed : Moves circ { circ with queueLen := circ.queueLen - 1 } :=
      Moves.of_streams rfl rfl
    apply halted.moves
    rw [handle]
    split
    · exact flushed.trans (setBlocked_moves false 0 _)
    · exact flushed
  | release => exact halted.moves (Moves.of_streams rfl rfl)
  | block => exact halted.moves (setBlocked_moves true 0 circ)
  | unblock => exact halted.moves (setBlocked_moves false 0 circ)

end

/-- In a run from a circuit without streams, no data cell is packaged from a stream that
received an XOFF and no XON since, as long as its steps spare such streams. -/
theorem xoff_respected {circ₀ circ : StreamCircuit}
    {ts : List (Transition StreamCircuit (PackagingEnv × PackagingEvent))}
    (none : circ₀.streams = []) (run : Run (PackagingStep p) circ₀ ts circ)
    (spared : ∀ x ∈ ts, Spares x) :
    ∀ x ∈ ts, ∀ cell ∈ x.post.sent.drop x.pre.sent.length, ∀ edge ∈ x.pre.streams,
      edge.conn = cell.conn → edge.flow.xoffReceived = false := by
  intro x member
  obtain ⟨earlier, later, split, reached⟩ := run.prefix_of_mem x member
  have held : Halted x.pre := by
    have before (y : Transition StreamCircuit (PackagingEnv × PackagingEvent))
        (inside : y ∈ earlier) : Spares y := spared y (by simp [split, inside])
    apply reached.invariant_of_steps before
    · constructor
      · rw [Apart, none]
        exact List.nodup_nil
      · simp [none]
      · simp [none]
    · intro pre e post halted step spares
      exact (halted.step step spares).2
  exact (held.step (run.step_of_mem x member) (spared x member)).1

/-! ## Runs of a client's circuit -/

/-- Take events, each of which must be possible and pass a test. -/
def runPackaging (p : FlowParams) (test : StreamCircuit → PackagingEnv × PackagingEvent → Bool)
    (circ : StreamCircuit) (events : List (PackagingEnv × PackagingEvent)) : Option StreamCircuit :=
  execAll (fun circ e => if e.2.Enabled circ then some (circ.handle e.1 p e.2) else none)
    test circ events

theorem run_of_runPackaging {test : StreamCircuit → PackagingEnv × PackagingEvent → Bool}
    {events : List (PackagingEnv × PackagingEvent)}
    (result : runPackaging p test circ events = some circ') :
    ∃ ts, Run (PackagingStep p) circ ts circ' ∧ ∀ x ∈ ts, test x.pre x.input = true := by
  apply run_of_execAll _ result
  intro pre e post _ taken
  split at taken
  · next enabled => exact ⟨enabled, (Option.some.inj taken).symm⟩
  · cases taken

def exitHop : StreamHop := ⟨3, true⟩

/-- A circuit to an exit, with the first window of 124 cells. -/
def newStreamCircuit : StreamCircuit where
  streams := []
  ccontrol := fun _ => ⟨124, 0⟩
  queueLen := 0
  delayLen := 0
  streamsBlocked := false
  markedForClose := false
  haveSentSufficientlyRandomCell := false
  sendRandomnessAfterNCells := 60
  sent := []

/-- A client's stream to the exit, with bytes that came with its request. -/
def clientStream (conn inbuf : Nat) : AttachedStream where
  conn := conn
  streamId := UInt16.ofNat conn
  flow := { newEdgeStream true with cpathLayer := some exitHop }
  linked := false
  readEvent := true
  markedForClose := false
  isOpen := false
  supportsOptimisticData := true
  packageWindow := 500
  inbuf := inbuf
  sendingOptimisticData := none
  edgeBlockedOnCirc := false

/-- The queue has room, and nothing is delayed or closed from outside. -/
def quietEnv : PackagingEnv where
  maxQueueSize := 2500
  highwatermark := 256
  lowwatermark := 10
  randomUint := fun _ => 0
  delays := fun _ => false
  oomCloses := fun _ => false

def defaultFlowParams : FlowParams := flowControlNewConsensusParams fun _ => none

/-- One stream fills the window, and another comes with bytes of its own. -/
def fillWindow : List PackagingEvent :=
  [.attach (clientStream 1 0), .connected 1, .read 1 [16384, 16384, 16384, 16384],
    .attach (clientStream 2 100), .connected 2]

/-- The SENDME for the first 31 cells. -/
def firstSendme : PackagingEvent := .sendme (some exitHop) ⟨155, 93⟩

/-- The second stream receives an XOFF when it has sent its bytes. -/
theorem xoff_respected_drained :
    ∃ ts circ, Run (PackagingStep defaultFlowParams) newStreamCircuit ts circ
      ∧ circ.sent.length = 136 ∧ circ.streams.map (·.flow.xoffReceived) = [true, false]
      ∧ ∀ x ∈ ts, ∀ cell ∈ x.post.sent.drop x.pre.sent.length, ∀ edge ∈ x.pre.streams,
        edge.conn = cell.conn → edge.flow.xoffReceived = false := by
  have result : (runPackaging defaultFlowParams (fun circ e => Spares ⟨circ, e, circ⟩)
      newStreamCircuit ((fillWindow ++ [firstSendme, .xoff 2 (some exitHop), .read 1 [1000],
        .sendme (some exitHop) ⟨155, 93⟩]).map fun e => (quietEnv, e))).map
      (fun circ => (circ.sent.length, circ.streams.map (·.flow.xoffReceived))) =
        some (136, [true, false]) := by
    decide +kernel
  obtain ⟨circ, reached, facts⟩ := Option.map_eq_some_iff.mp result
  obtain ⟨ts, run, tested⟩ := run_of_runPackaging reached
  rw [Prod.mk.injEq] at facts
  refine ⟨ts, circ, run, facts.1, facts.2, ?_⟩
  apply xoff_respected rfl run
  intro x member
  exact of_decide_eq_true (tested x member)

/-- The first stream fills the window and receives an XOFF. The next SENDME finds bytes on the
inbuf of the second stream, and packages what both still hold. -/
theorem xoff_not_respected :
    ¬∀ (p : FlowParams) (circ₀ circ : StreamCircuit)
      (ts : List (Transition StreamCircuit (PackagingEnv × PackagingEvent))),
      circ₀.streams = [] → Run (PackagingStep p) circ₀ ts circ →
      ∀ x ∈ ts, ∀ cell ∈ x.post.sent.drop x.pre.sent.length, ∀ edge ∈ x.pre.streams,
        edge.conn = cell.conn → edge.flow.xoffReceived = false := by
  intro claim
  have result : (runPackaging defaultFlowParams (fun _ _ => true) newStreamCircuit
      ((fillWindow ++ [xoff 1 (some exitHop)]).map fun e => (quietEnv, e))).map
      (fun circ => decide (∃ cell ∈ (circ.handle quietEnv defaultFlowParams firstSendme).sent.drop
        circ.sent.length, ∃ edge ∈ circ.streams,
          edge.conn = cell.conn ∧ edge.flow.xoffReceived = true)) = some true := by
    decide +kernel
  obtain ⟨circ, reached, violated⟩ := Option.map_eq_some_iff.mp result
  obtain ⟨ts, run, _⟩ := run_of_runPackaging reached
  obtain ⟨cell, packaged, edge, member, same, xoff⟩ := of_decide_eq_true violated
  have last : PackagingStep defaultFlowParams circ (quietEnv, firstSendme)
      (circ.handle quietEnv defaultFlowParams firstSendme) :=
    ⟨trivial, rfl⟩
  have respected := claim defaultFlowParams newStreamCircuit _ _ rfl (run.snoc last) _
    (List.mem_append_right _ (List.mem_singleton_self _)) cell packaged edge member same
  rw [xoff] at respected
  cases respected

end RendezMix.Guarantees.XoffRespected
