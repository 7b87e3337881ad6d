import RendezMix.Guarantees.SendmeCalls
import RendezMix.Source.SendmeSystem

/-!
# What a call at one end does to the windows

With fixed windows. A call takes in some cells and sends some; what it does to
the windows is a balance between the two, for the circuit and for each stream,
and the balances of consecutive calls add up.
-/
namespace RendezMix.Guarantees.WindowMoves
open Source SendmeCalls HopEnd

variable {H : Type} (rd : RunningDigest H)

/-! ## Counting cells -/

/-- The DATA cells of a stream. -/
def dataOn (streamId : UInt16) (cells : List HopCell) : Nat :=
  cells.countP fun cell => cell.command = .data ∧ cell.streamId = streamId

/-- The SENDMEs of a stream, or of the circuit for the identifier 0. -/
def sendmesOn (streamId : UInt16) (cells : List HopCell) : Nat :=
  cells.countP fun cell => cell.command = .sendme ∧ cell.streamId = streamId

@[simp] theorem dataCells_append (xs ys : List HopCell) :
    dataCells (xs ++ ys) = dataCells xs + dataCells ys := List.countP_append

@[simp] theorem dataOn_append (streamId : UInt16) (xs ys : List HopCell) :
    dataOn streamId (xs ++ ys) = dataOn streamId xs + dataOn streamId ys := List.countP_append

@[simp] theorem sendmesOn_append (streamId : UInt16) (xs ys : List HopCell) :
    sendmesOn streamId (xs ++ ys) = sendmesOn streamId xs + sendmesOn streamId ys :=
  List.countP_append

@[simp] theorem dataCells_nil : dataCells [] = 0 := rfl
@[simp] theorem dataOn_nil (streamId : UInt16) : dataOn streamId [] = 0 := rfl
@[simp] theorem sendmesOn_nil (streamId : UInt16) : sendmesOn streamId [] = 0 := rfl

@[simp] theorem dataCells_single (cell : HopCell) :
    dataCells [cell] = if cell.command = .data then 1 else 0 := by
  simp [dataCells, List.countP_singleton]

@[simp] theorem dataOn_single (streamId : UInt16) (cell : HopCell) :
    dataOn streamId [cell] = if cell.command = .data ∧ cell.streamId = streamId then 1 else 0 := by
  simp [dataOn, List.countP_singleton]

@[simp] theorem sendmesOn_single (streamId : UInt16) (cell : HopCell) :
    sendmesOn streamId [cell]
      = if cell.command = .sendme ∧ cell.streamId = streamId then 1 else 0 := by
  simp [sendmesOn, List.countP_singleton]

/-! ## Balances -/

/-- The windows of a stream. -/
def streamOf (e : HopEnd H) (streamId : UInt16) : EdgeConnection :=
  (e.streams streamId).getD ⟨streamwindowStart, streamwindowStart⟩

theorem streamOf_of_some {e : HopEnd H} {streamId : UInt16} {conn : EdgeConnection}
    (found : e.streams streamId = some conn) : streamOf e streamId = conn := by
  rw [streamOf, found, Option.getD_some]

/-- The balance of a call that takes in `arrived` and sends `sent`: packaged cells are paid
from the package window, and delivered cells are refunded by SENDMEs. -/
structure Balance (e e' : HopEnd H) (arrived sent : List HopCell) : Prop where
  credit : e'.packageWindow + dataCells sent
    = e.packageWindow + circwindowIncrement * sendmesOn 0 arrived
  owed : (circwindowStart - e'.deliverWindow) + circwindowIncrement * sendmesOn 0 sent
    = (circwindowStart - e.deliverWindow) + dataCells arrived

/-- The balance of a call for one stream. -/
structure StreamBalance (streamId : UInt16) (e e' : HopEnd H) (arrived sent : List HopCell) :
    Prop where
  credit : (streamOf e' streamId).packageWindow + dataOn streamId sent
    = (streamOf e streamId).packageWindow + streamwindowIncrement * sendmesOn streamId arrived
  owed : (streamwindowStart - (streamOf e' streamId).deliverWindow)
      + streamwindowIncrement * sendmesOn streamId sent
    = (streamwindowStart - (streamOf e streamId).deliverWindow) + dataOn streamId arrived

variable {e e₁ e₂ e₃ : HopEnd H} {arrived arrived' sent sent' : List HopCell} {streamId : UInt16}

theorem Balance.trans (first : Balance e₁ e₂ arrived sent)
    (second : Balance e₂ e₃ arrived' sent') :
    Balance e₁ e₃ (arrived ++ arrived') (sent ++ sent') := by
  obtain ⟨credit, owed⟩ := first
  obtain ⟨credit', owed'⟩ := second
  simp only [circwindowIncrement] at *
  constructor <;> simp only [dataCells_append, sendmesOn_append, Nat.cast_add,
    circwindowIncrement] <;> omega

theorem StreamBalance.trans (first : StreamBalance streamId e₁ e₂ arrived sent)
    (second : StreamBalance streamId e₂ e₃ arrived' sent') :
    StreamBalance streamId e₁ e₃ (arrived ++ arrived') (sent ++ sent') := by
  obtain ⟨credit, owed⟩ := first
  obtain ⟨credit', owed'⟩ := second
  simp only [streamwindowIncrement] at *
  constructor <;> simp only [dataOn_append, sendmesOn_append, Nat.cast_add,
    streamwindowIncrement] <;> omega

theorem balance_idle (packageWindow : e₂.packageWindow = e₁.packageWindow)
    (deliverWindow : e₂.deliverWindow = e₁.deliverWindow)
    (none_ : dataCells sent = 0) (none' : sendmesOn 0 sent = 0)
    (none₁ : dataCells arrived = 0) (none₂ : sendmesOn 0 arrived = 0) :
    Balance e₁ e₂ arrived sent := by
  constructor
  · rw [packageWindow, none_, none₂]
    simp
  · rw [deliverWindow, none', none₁]
    simp

theorem streamBalance_idle (streams : streamOf e₂ streamId = streamOf e₁ streamId)
    (none_ : dataOn streamId sent = 0) (none' : sendmesOn streamId sent = 0)
    (none₁ : dataOn streamId arrived = 0) (none₂ : sendmesOn streamId arrived = 0) :
    StreamBalance streamId e₁ e₂ arrived sent := by
  constructor
  · rw [streams, none_, none₂]
    simp
  · rw [streams, none', none₁]
    simp

/-! ## Calls that only send -/

/-- What is sent is paid for, the streams that are open stay open, and no package window goes
below zero. -/
structure WindowCall (e e' : HopEnd H) (sent : List HopCell) : Prop where
  balance : Balance e e' [] sent
  stream : ∀ streamId ≠ 0, StreamBalance streamId e e' [] sent
  ccontrol : e'.ccontrol = e.ccontrol
  opened : ∀ streamId, (e'.streams streamId).isSome = (e.streams streamId).isSome
  credit_nonneg : 0 ≤ e.packageWindow → 0 ≤ e'.packageWindow
  streamCredit_nonneg : ∀ streamId, 0 ≤ (streamOf e streamId).packageWindow →
    0 ≤ (streamOf e' streamId).packageWindow
  streamHigh : ∀ streamId, (streamOf e streamId).deliverWindow ≤ streamwindowStart →
    (streamOf e' streamId).deliverWindow ≤ streamwindowStart

theorem WindowCall.trans (first : WindowCall e₁ e₂ sent) (second : WindowCall e₂ e₃ sent') :
    WindowCall e₁ e₃ (sent ++ sent') := by
  constructor
  · exact first.balance.trans second.balance
  · intro streamId positive
    exact (first.stream streamId positive).trans (second.stream streamId positive)
  · exact second.ccontrol.trans first.ccontrol
  · intro streamId
    rw [second.opened, first.opened]
  · intro start
    exact second.credit_nonneg (first.credit_nonneg start)
  · intro streamId start
    exact second.streamCredit_nonneg streamId (first.streamCredit_nonneg streamId start)
  · intro streamId start
    exact second.streamHigh streamId (first.streamHigh streamId start)

theorem windowCall_idle (packageWindow : e₂.packageWindow = e₁.packageWindow)
    (deliverWindow : e₂.deliverWindow = e₁.deliverWindow) (streams : e₂.streams = e₁.streams)
    (ccontrol : e₂.ccontrol = e₁.ccontrol) (others : ∀ c ∈ sent, c.command = .other) :
    WindowCall e₁ e₂ sent := by
  have data : ∀ p : HopCell → Bool, (∀ c, c.command = .other → p c = false) →
      sent.countP p = 0 := by
    intro p no
    rw [List.countP_eq_zero]
    intro c member
    simp [no c (others c member)]
  have same (streamId : UInt16) : streamOf e₂ streamId = streamOf e₁ streamId := by
    rw [streamOf, streamOf, streams]
  constructor
  · apply balance_idle packageWindow deliverWindow _ _ rfl rfl
    · exact data _ (by simp +contextual)
    · exact data _ (by simp +contextual)
  · intro streamId _
    apply streamBalance_idle (same streamId) _ _ rfl rfl
    · exact data _ (by simp +contextual)
    · exact data _ (by simp +contextual)
  · exact ccontrol
  · intro streamId
    rw [streams]
  · intro start
    rwa [packageWindow]
  · intro streamId start
    rwa [same]
  · intro streamId start
    rwa [same]

theorem windowCall_refl (e : HopEnd H) : WindowCall e e [] :=
  windowCall_idle rfl rfl rfl rfl (by simp)

theorem streamOf_setStream (e : HopEnd H) (streamId other : UInt16) (conn : EdgeConnection) :
    streamOf (e.setStream streamId conn) other
      = if other = streamId then conn else streamOf e other := by
  rw [streamOf, setStream]
  by_cases same : other = streamId
  · subst same
    simp
  · simp [streamOf, Function.update_of_ne same, if_neg same]

theorem isSome_setStream {e : HopEnd H} {streamId : UInt16} {old : EdgeConnection}
    (found : e.streams streamId = some old) (conn : EdgeConnection) (other : UInt16) :
    ((e.setStream streamId conn).streams other).isSome = (e.streams other).isSome := by
  rw [setStream]
  by_cases same : other = streamId
  · subst same
    simp [found]
  · simp [Function.update_of_ne same]

section

variable {cell : HopCell} {conn : EdgeConnection}

/-- A stream's windows are set, and one cell is sent. -/
theorem windowCall_stream {conn conn' : EdgeConnection} (found : e₁.streams streamId = some conn)
    (streams : e₂.streams = (e₁.setStream streamId conn').streams)
    (ccontrol : e₂.ccontrol = e₁.ccontrol) (balance : Balance e₁ e₂ [] [cell])
    (credit : conn'.packageWindow + dataOn streamId [cell] = conn.packageWindow)
    (owed : conn.deliverWindow + streamwindowIncrement * sendmesOn streamId [cell]
      = conn'.deliverWindow) (its : cell.streamId = streamId)
    (nonneg : 0 ≤ e₁.packageWindow → 0 ≤ e₂.packageWindow)
    (nonneg' : 0 ≤ conn.packageWindow → 0 ≤ conn'.packageWindow)
    (high : conn.deliverWindow ≤ streamwindowStart → conn'.deliverWindow ≤ streamwindowStart) :
    WindowCall e₁ e₂ [cell] := by
  have after (other : UInt16) : streamOf e₂ other
      = if other = streamId then conn' else streamOf e₁ other := by
    rw [← streamOf_setStream, streamOf, streamOf, streams]
  constructor
  · exact balance
  · intro other _
    by_cases same : other = streamId
    · subst same
      constructor
      · rw [after, if_pos rfl, streamOf_of_some found]
        simpa using credit
      · rw [after, if_pos rfl, streamOf_of_some found]
        simp only [dataOn_nil]
        omega
    · apply streamBalance_idle _ _ _ rfl rfl
      · rw [after, if_neg same]
      · have elsewhere : cell.streamId ≠ other := fun eq => same (eq.symm.trans its)
        simp [elsewhere]
      · have elsewhere : cell.streamId ≠ other := fun eq => same (eq.symm.trans its)
        simp [elsewhere]
  · exact ccontrol
  · intro other
    rw [streams]
    exact isSome_setStream found conn' other
  · exact nonneg
  · intro other start
    rw [after]
    split
    · next same =>
      subst same
      rw [streamOf_of_some found] at start
      exact nonneg' start
    · exact start
  · intro other start
    rw [after]
    split
    · next same =>
      subst same
      rw [streamOf_of_some found] at start
      exact high start
    · exact start

/-! ## Packaging -/

/-- One DATA cell is packaged, within both windows. -/
theorem windowCall_packaged (fixed : e.ccontrol = none) (room : 0 < e.packageWindow)
    (found : e.streams streamId = some conn) (streamRoom : 0 < conn.packageWindow)
    (next : InbufCell) (xoffReceived : Bool) :
    WindowCall e
      (sendmeNoteStreamDataPackaged streamId conn xoffReceived
        (sendmeNoteCircuitDataPackaged next.nowUsec
          (relaySendCommandFromEdge rd ⟨.data, streamId, next.payload⟩ e)).1).1
      [⟨.data, streamId, next.payload⟩] := by
  simp only [sendmeNoteCircuitDataPackaged, sendmeNoteStreamDataPackaged,
    relaySendCommandFromEdge_ccontrol, fixed, Option.isSome_none, Bool.false_eq_true, if_false]
  apply windowCall_stream found
  · simp [setStream]
    rfl
  · simp [setStream, fixed]
  · constructor
    · simp [setStream]
    · simp [setStream]
  · simp
  · simp
  · rfl
  · simp [setStream]
    omega
  · simp
    omega
  · exact fun start => start

theorem sendmeNoteCircuitDataPackaged_fixed (fixed : e.ccontrol = none) (nowUsec : UInt64) :
    (sendmeNoteCircuitDataPackaged nowUsec e).2 = e.packageWindow - 1 := by
  simp [sendmeNoteCircuitDataPackaged, congestionControlGetPackageWindow, fixed]

/-- A stream packages without an error, and leaves the deliver window alone. -/
theorem connectionEdgePackageRawInbuf_call (streamId : UInt16) (fixed : e.ccontrol = none) (xoffReceived : Bool)
    (inbuf : List InbufCell) (maxCells : Option Int) :
    ∃ e' sent, connectionEdgePackageRawInbuf rd streamId xoffReceived inbuf maxCells e
        = .ok (e', sent)
      ∧ WindowCall e e' sent ∧ e'.deliverWindow = e.deliverWindow := by
  induction inbuf generalizing e maxCells with
  | nil => exact ⟨e, [], rfl, windowCall_refl e, rfl⟩
  | cons next inbuf ih =>
    rw [connectionEdgePackageRawInbuf]
    split
    · exact ⟨e, [], rfl, windowCall_refl e, rfl⟩
    split
    · exact ⟨e, [], rfl, windowCall_refl e, rfl⟩
    next room =>
    split
    · exact ⟨e, [], rfl, windowCall_refl e, rfl⟩
    next conn found =>
    split
    · exact ⟨e, [], rfl, windowCall_refl e, rfl⟩
    next streamRoom =>
    have open_ : 0 < e.packageWindow := by
      simpa [congestionControlGetPackageWindow, fixed] using room
    have call := windowCall_packaged rd fixed open_ found (by omega) next xoffReceived
    have deliver : (sendmeNoteStreamDataPackaged streamId conn xoffReceived
        (sendmeNoteCircuitDataPackaged next.nowUsec
          (relaySendCommandFromEdge rd ⟨.data, streamId, next.payload⟩ e)).1).1.deliverWindow
        = e.deliverWindow := by
      simp [sendmeNoteCircuitDataPackaged, sendmeNoteStreamDataPackaged, fixed, setStream]
    simp only
    split
    · next negative =>
      rw [sendmeNoteCircuitDataPackaged_fixed (by simpa using fixed)] at negative
      simp at negative
      omega
    split
    · exact ⟨_, _, rfl, call, deliver⟩
    · obtain ⟨e', sent, result, more, deliver'⟩ :=
        ih (call.ccontrol.trans fixed) (maxCells.map (· - 1))
      rw [result]
      exact ⟨e', _, rfl, call.trans more, deliver'.trans deliver⟩

/-! ## Sending SENDMEs -/

section

variable (fixed : e.ccontrol = none) (consensus : SendmeConsensus)

include fixed

theorem windowCall_sendme :
    WindowCall e
      (sendCircuitLevelSendme rd consensus e.sendmeDigest
        { e with deliverWindow := e.deliverWindow + sendmeGetIncCount e }).1
      [(sendCircuitLevelSendme rd consensus e.sendmeDigest
        { e with deliverWindow := e.deliverWindow + sendmeGetIncCount e }).2] := by
  have inc : sendmeGetIncCount e = circwindowIncrement := by simp [sendmeGetIncCount, fixed]
  simp only [sendCircuitLevelSendme, inc]
  constructor
  · constructor
    · simp
    · simp
      omega
  · intro other positive
    apply streamBalance_idle _ _ _ rfl rfl
    · simp [streamOf]
    · simp
    · simp [positive.symm]
  · simp
  · simp
  · simp
  · intro other start
    simpa [streamOf] using start
  · intro other start
    simpa [streamOf] using start

theorem circuitConsiderSendingLoop_call (fuel : Nat) :
    WindowCall e (circuitConsiderSendingLoop rd consensus fuel e).1
      (circuitConsiderSendingLoop rd consensus fuel e).2 := by
  induction fuel generalizing e with
  | zero => exact windowCall_refl e
  | succ fuel ih =>
    rw [circuitConsiderSendingLoop]
    split
    · have call := windowCall_sendme rd fixed consensus
      exact call.trans (ih (call.ccontrol.trans fixed))
    · exact windowCall_refl e

end

theorem edgeConsiderSendingLoop_call (found : e.streams streamId = some conn)
    (positive : streamId ≠ 0) (fuel : Nat) :
    WindowCall e (edgeConsiderSendingLoop rd streamId fuel conn e).1
        (edgeConsiderSendingLoop rd streamId fuel conn e).2
      ∧ (edgeConsiderSendingLoop rd streamId fuel conn e).1.deliverWindow = e.deliverWindow := by
  induction fuel generalizing e conn with
  | zero => exact ⟨windowCall_refl e, rfl⟩
  | succ fuel ih =>
    rw [edgeConsiderSendingLoop]
    split
    · next due =>
      have call : WindowCall e
          (relaySendCommandFromEdge rd ⟨.sendme, streamId, []⟩ (e.setStream streamId
            { conn with deliverWindow := conn.deliverWindow + streamwindowIncrement }))
          [⟨.sendme, streamId, []⟩] := by
        apply windowCall_stream found
        · exact relaySendCommandFromEdge_streams rd _ _
        · simp [setStream]
        · constructor
          · simp [setStream]
          · simp [setStream, positive]
        · simp
        · simp
        · rfl
        · simp [setStream]
        · simp
        · intro _
          simp only [streamwindowStart, streamwindowIncrement] at *
          omega
      have here : (relaySendCommandFromEdge rd ⟨.sendme, streamId, []⟩ (e.setStream streamId
          { conn with deliverWindow := conn.deliverWindow + streamwindowIncrement })).streams
          streamId
          = some { conn with deliverWindow := conn.deliverWindow + streamwindowIncrement } := by
        simp [setStream]
      obtain ⟨rest, deliver⟩ := ih here
      refine ⟨call.trans rest, deliver.trans ?_⟩
      simp [setStream]
    · exact ⟨windowCall_refl e, rfl⟩

theorem sendmeConnectionEdgeConsiderSending_call (streamId : UInt16)
    (noStream : e.streams 0 = none) (outbufTooFull : Bool) :
    WindowCall e (sendmeConnectionEdgeConsiderSending rd streamId outbufTooFull e).1
        (sendmeConnectionEdgeConsiderSending rd streamId outbufTooFull e).2
      ∧ (sendmeConnectionEdgeConsiderSending rd streamId outbufTooFull e).1.deliverWindow
        = e.deliverWindow := by
  rw [sendmeConnectionEdgeConsiderSending]
  split
  · exact ⟨windowCall_refl e, rfl⟩
  · next conn found =>
    split
    · exact ⟨windowCall_refl e, rfl⟩
    · have positive : streamId ≠ 0 := by
        rintro rfl
        rw [noStream] at found
        cases found
      exact edgeConsiderSendingLoop_call rd found positive _

/-! ## Receiving -/

/-- An end at rest: fixed windows, and less than one increment not yet refunded. -/
structure AtRest (e : HopEnd H) : Prop where
  ccontrol : e.ccontrol = none
  noStream : e.streams 0 = none
  low : circwindowStart - circwindowIncrement < e.deliverWindow
  high : e.deliverWindow ≤ circwindowStart

theorem sendmeRecordReceivedCellDigest_call (rest : AtRest e) :
    ∃ e', sendmeRecordReceivedCellDigest rd e = .ok e' ∧ WindowCall e e' []
      ∧ e'.deliverWindow = e.deliverWindow ∧ e'.streams = e.streams
      ∧ e'.sendmeLastDigests = e.sendmeLastDigests := by
  have high := rest.high
  rw [sendmeRecordReceivedCellDigest, circuitSendmeCellIsNext, if_pos high]
  split
  · next failed => cases failed
  · exact ⟨_, rfl, windowCall_idle rfl rfl rfl rfl (by simp), rfl, rfl, rfl⟩
  · exact ⟨e, rfl, windowCall_refl e, rfl, rfl, rfl⟩

/-- What a DATA cell does at the circuit level. -/
def circuitData (consensus : SendmeConsensus) (e : HopEnd H) : HopEnd H × List HopCell :=
  sendmeCircuitConsiderSending rd consensus (sendmeCircuitDataReceived e).1

theorem circuitData_call (fixed : e.ccontrol = none) (consensus : SendmeConsensus) :
    WindowCall (sendmeCircuitDataReceived e).1 (circuitData rd consensus e).1
      (circuitData rd consensus e).2 := by
  have received : (sendmeCircuitDataReceived e).1.ccontrol = none := fixed
  exact circuitConsiderSendingLoop_call rd received consensus _

theorem circuitData_streams (consensus : SendmeConsensus) (e : HopEnd H) :
    (circuitData rd consensus e).1.streams = e.streams :=
  circuitConsiderSendingLoop_streams rd consensus _ _

theorem circuitData_rest (rest : AtRest e) (consensus : SendmeConsensus) :
    AtRest (circuitData rd consensus e).1 ∧ (circuitData rd consensus e).2.length ≤ 1 := by
  have low := rest.low
  have high := rest.high
  have inc : sendmeGetIncCount (sendmeCircuitDataReceived e).1 = circwindowIncrement := by
    simp [sendmeGetIncCount, sendmeCircuitDataReceived, rest.ccontrol]
  have window : (sendmeCircuitDataReceived e).1.deliverWindow = e.deliverWindow - 1 := rfl
  have bounds : circwindowStart - circwindowIncrement < (circuitData rd consensus e).1.deliverWindow
      ∧ (circuitData rd consensus e).1.deliverWindow ≤ circwindowStart
      ∧ (circuitData rd consensus e).2.length ≤ 1 := by
    rw [circuitData]
    by_cases due : (sendmeCircuitDataReceived e).1.deliverWindow
        ≤ circwindowStart - circwindowIncrement
    · rw [sendmeCircuitConsiderSending_once rd consensus (by omega) (by
        omega)]
      simp only [sendCircuitLevelSendme, relaySendCommandFromEdge_deliverWindow, inc, window,
        circwindowIncrement, List.length_singleton] at *
      omega
    · rw [sendmeCircuitConsiderSending_idle rd consensus (by omega)]
      simp only [window, List.length_nil] at *
      omega
  refine ⟨⟨?_, ?_, bounds.1, bounds.2.1⟩, bounds.2.2⟩
  · exact (circuitData_call rd rest.ccontrol consensus).ccontrol.trans rest.ccontrol
  · rw [circuitData_streams]
    exact rest.noStream

/-- The balances of a call from an end at rest, with the cells that arrive. -/
structure Received (e e' : HopEnd H) (arrived sent : List HopCell) : Prop where
  balance : Balance e e' arrived sent
  stream : ∀ streamId ≠ 0, (e.streams streamId).isSome →
    StreamBalance streamId e e' arrived sent
  opened : ∀ streamId, (e'.streams streamId).isSome = (e.streams streamId).isSome
  credit_nonneg : 0 ≤ e.packageWindow → 0 ≤ e'.packageWindow
  streamCredit_nonneg : ∀ streamId, 0 ≤ (streamOf e streamId).packageWindow →
    0 ≤ (streamOf e' streamId).packageWindow
  streamHigh : ∀ streamId, (streamOf e streamId).deliverWindow ≤ streamwindowStart →
    (streamOf e' streamId).deliverWindow ≤ streamwindowStart
  rest : AtRest e'

theorem WindowCall.received (call : WindowCall e₁ e₂ sent) (rest : AtRest e₁)
    (deliver : e₂.deliverWindow = e₁.deliverWindow) : Received e₁ e₂ [] sent := by
  constructor
  · exact call.balance
  · exact fun streamId positive _ => call.stream streamId positive
  · exact call.opened
  · exact call.credit_nonneg
  · exact call.streamCredit_nonneg
  · exact call.streamHigh
  · constructor
    · exact call.ccontrol.trans rest.ccontrol
    · have closed := call.opened 0
      rw [rest.noStream, Option.isSome_none] at closed
      exact Option.not_isSome_iff_eq_none.mp (by simp [closed])
    · rw [deliver]
      exact rest.low
    · rw [deliver]
      exact rest.high

/-- What a stream makes of a DATA cell, before its own SENDMEs. -/
structure StreamTakes (cell : HopCell) (e e' : HopEnd H) : Prop where
  stream : ∀ streamId ≠ 0, (e.streams streamId).isSome → StreamBalance streamId e e' [cell] []
  sender : SameSender e e'
  deliver : e'.deliverWindow = e.deliverWindow
  opened : ∀ streamId, (e'.streams streamId).isSome = (e.streams streamId).isSome
  credit : ∀ streamId, (streamOf e' streamId).packageWindow
    = (streamOf e streamId).packageWindow
  high : ∀ streamId, (streamOf e' streamId).deliverWindow ≤ (streamOf e streamId).deliverWindow

/-- A DATA cell goes through the circuit, then its stream, then the stream's own SENDMEs. -/
theorem received_data (rest : AtRest e) (data : cell.command = .data)
    (consensus : SendmeConsensus) {more : List HopCell}
    (takes : StreamTakes cell (circuitData rd consensus e).1 e₁) (call : WindowCall e₁ e₂ more)
    (deliver : e₂.deliverWindow = e₁.deliverWindow) :
    Received e e₂ [cell] ((circuitData rd consensus e).2 ++ more) := by
  have streams := circuitData_streams rd consensus e
  have rested := (circuitData_rest rd rest consensus).1
  have due := circuitData_call rd rest.ccontrol consensus
  have received : Balance e (sendmeCircuitDataReceived e).1 [cell] [] := by
    constructor
    · simp [sendmeCircuitDataReceived, data]
    · simp [sendmeCircuitDataReceived, data]
      omega
  have settled : Balance (circuitData rd consensus e).1 e₁ [] [] :=
    balance_idle takes.sender.packageWindow takes.deliver rfl rfl rfl rfl
  constructor
  · have all := ((received.trans due.balance).trans settled).trans call.balance
    simpa using all
  · intro streamId positive open_
    have before : StreamBalance streamId e (sendmeCircuitDataReceived e).1 [] [] :=
      streamBalance_idle rfl rfl rfl rfl rfl
    have taken := takes.stream streamId positive (by rwa [streams])
    have all := ((before.trans (due.stream streamId positive)).trans taken).trans
      (call.stream streamId positive)
    simpa using all
  · intro streamId
    rw [call.opened, takes.opened, streams]
  · intro start
    apply call.credit_nonneg
    rw [takes.sender.packageWindow]
    exact due.credit_nonneg start
  · intro streamId start
    apply call.streamCredit_nonneg
    rw [takes.credit, streamOf, streams]
    exact start
  · intro streamId start
    apply call.streamHigh
    have taken := takes.high streamId
    simp only [streamOf, streams] at taken start
    exact taken.trans start
  · constructor
    · rw [call.ccontrol, takes.sender.ccontrol]
      exact rested.ccontrol
    · have closed := call.opened 0
      rw [takes.opened, rested.noStream, Option.isSome_none] at closed
      exact Option.not_isSome_iff_eq_none.mp (by simp [closed])
    · rw [deliver, takes.deliver]
      exact rested.low
    · rw [deliver, takes.deliver]
      exact rested.high

theorem streamTakes_none (elsewhere : ∀ streamId ≠ 0,
    (e.streams streamId).isSome → cell.streamId ≠ streamId) : StreamTakes cell e e := by
  constructor
  · intro streamId positive open_
    have other := elsewhere streamId positive open_
    exact streamBalance_idle rfl rfl rfl (by simp [other]) (by simp [other])
  · exact SameSender.refl e
  · rfl
  · exact fun _ => rfl
  · exact fun _ => rfl
  · exact fun _ => le_refl _

theorem streamTakes_some (data : cell.command = .data) (fixed : e.ccontrol = none)
    (found : e.streams cell.streamId = some conn) :
    StreamTakes cell e (sendmeStreamDataReceived cell.streamId conn e).1
      ∧ (sendmeStreamDataReceived cell.streamId conn e).2 = conn.deliverWindow - 1 := by
  have result : sendmeStreamDataReceived cell.streamId conn e
      = (e.setStream cell.streamId { conn with deliverWindow := conn.deliverWindow - 1 },
        conn.deliverWindow - 1) := by
    simp [sendmeStreamDataReceived, fixed]
  rw [result]
  refine ⟨⟨?_, ⟨rfl, rfl, rfl⟩, rfl, isSome_setStream found _, ?_, ?_⟩, rfl⟩
  · intro streamId positive open_
    by_cases its : streamId = cell.streamId
    · subst its
      constructor
      · rw [streamOf_setStream, if_pos rfl, streamOf_of_some found]
        simp [data]
      · rw [streamOf_setStream, if_pos rfl, streamOf_of_some found]
        simp [data]
        omega
    · have other : cell.streamId ≠ streamId := fun same => its same.symm
      apply streamBalance_idle _ rfl rfl (by simp [other]) (by simp [other])
      rw [streamOf_setStream, if_neg its]
  · intro streamId
    rw [streamOf_setStream]
    split
    · next its =>
      subst its
      rw [streamOf_of_some found]
    · rfl
  · intro streamId
    rw [streamOf_setStream]
    split
    · next its =>
      subst its
      rw [streamOf_of_some found]
      simp only
      omega
    · exact le_refl _

theorem handleRelayData_received (rest : AtRest e) (data : cell.command = .data) (reading : Reading)
    (room : ∀ conn, e.streams cell.streamId = some conn → 0 < conn.deliverWindow) :
    ∃ e' sent, handleRelayData rd reading cell e = .ok (e', sent) ∧ Received e e' [cell] sent := by
  have low := rest.low
  have streams := circuitData_streams rd reading.consensus e
  have rested := (circuitData_rest rd rest reading.consensus).1
  have below : ¬(sendmeCircuitDataReceived e).2 < 0 := by
    simp only [sendmeCircuitDataReceived, circwindowStart, circwindowIncrement] at *
    omega
  have passed : handleRelayData rd reading cell e = handleStreamData rd reading cell
      (circuitData rd reading.consensus e).2 (circuitData rd reading.consensus e).1 := by
    exact if_neg below
  have dropped (none_ : StreamTakes cell (circuitData rd reading.consensus e).1
      (circuitData rd reading.consensus e).1) : Received e (circuitData rd reading.consensus e).1
        [cell] (circuitData rd reading.consensus e).2 := by
    have all := received_data rd rest data reading.consensus none_ (windowCall_refl _) rfl
    rwa [List.append_nil] at all
  rw [passed, handleStreamData]
  split
  · next zero =>
    refine ⟨_, _, rfl, dropped (streamTakes_none fun streamId positive _ same => ?_)⟩
    exact positive (same.symm.trans zero)
  split
  · next closed =>
    refine ⟨_, _, rfl, dropped (streamTakes_none fun streamId _ open_ same => ?_)⟩
    rw [← same, closed] at open_
    cases open_
  · next conn found =>
    have room := room conn (streams ▸ found)
    obtain ⟨takes, window⟩ := streamTakes_some data rested.ccontrol found
    simp only
    rw [if_neg (by omega)]
    split
    · have all := received_data rd rest data reading.consensus takes (windowCall_refl _) rfl
      rw [List.append_nil] at all
      exact ⟨_, _, rfl, all⟩
    · have noStream : (sendmeStreamDataReceived cell.streamId conn
          (circuitData rd reading.consensus e).1).1.streams 0 = none := by
        have closed := takes.opened 0
        rw [rested.noStream, Option.isSome_none] at closed
        exact Option.not_isSome_iff_eq_none.mp (by simp [closed])
      have more := sendmeConnectionEdgeConsiderSending_call rd cell.streamId noStream
        reading.outbufTooFull
      exact ⟨_, _, rfl, received_data rd rest data reading.consensus takes more.1 more.2⟩

/-- A SENDME is redeemed, unless its digest is refused or there is no room for it. -/
theorem processSendmeCell_received (rest : AtRest e) (sendme : cell.command = .sendme)
    (consensus : SendmeConsensus) (env : CcEnv)
    (room : cell.streamId = 0 → e.packageWindow + circwindowIncrement ≤ circwindowStartMax)
    (streamRoom : ∀ conn, e.streams cell.streamId = some conn →
      conn.packageWindow + streamwindowIncrement ≤ streamwindowStartMax) :
    processSendmeCell consensus env cell e = .error .invalidSendme
      ∨ ∃ e', processSendmeCell consensus env cell e = .ok e' ∧ Received e e' [cell] [] := by
  rw [processSendmeCell]
  split
  · next zero =>
    rw [sendmeProcessCircuitLevel]
    split
    · exact .inl rfl
    · next digests valid =>
      right
      simp only [rest.ccontrol, sendmeProcessCircuitLevelImpl]
      rw [if_neg (by
        have room := room zero
        omega)]
      refine ⟨_, rfl, ?_⟩
      constructor
      · constructor
        · simp [sendme, zero]
        · simp [sendme]
      · intro streamId positive _
        exact streamBalance_idle rfl rfl rfl (by simp [sendme]) (by simp [zero, positive.symm])
      · exact fun _ => rfl
      · intro start
        simp only [circwindowIncrement]
        omega
      · exact fun _ start => start
      · exact fun _ start => start
      · exact ⟨rfl, rest.noStream, rest.low, rest.high⟩
  · next positive =>
    right
    split
    · next closed =>
      refine ⟨e, rfl, ?_⟩
      constructor
      · exact balance_idle rfl rfl rfl rfl (by simp [sendme]) (by simp [positive])
      · intro streamId _ open_
        have other : cell.streamId ≠ streamId := by
          rintro rfl
          rw [closed] at open_
          cases open_
        exact streamBalance_idle rfl rfl rfl (by simp [other]) (by simp [other])
      · exact fun _ => rfl
      · exact fun start => start
      · exact fun _ start => start
      · exact fun _ start => start
      · exact rest
    · next conn found =>
      have streamRoom := streamRoom conn found
      simp only [sendmeProcessStreamLevel, rest.ccontrol, Option.isSome_none]
      rw [if_neg (by simp), if_neg (by omega)]
      refine ⟨_, rfl, ?_⟩
      constructor
      · exact balance_idle rfl rfl rfl rfl (by simp [sendme]) (by simp [positive])
      · intro streamId _ _
        by_cases its : streamId = cell.streamId
        · subst its
          constructor
          · rw [streamOf_setStream, if_pos rfl, streamOf_of_some found]
            simp [sendme]
          · rw [streamOf_setStream, if_pos rfl, streamOf_of_some found]
            simp [sendme]
        · have other : cell.streamId ≠ streamId := fun same => its same.symm
          apply streamBalance_idle _ rfl rfl (by simp [other]) (by simp [other])
          rw [streamOf_setStream, if_neg its]
      · exact isSome_setStream found _
      · exact fun start => start
      · intro streamId start
        rw [streamOf_setStream]
        split
        · next its =>
          subst its
          rw [streamOf_of_some found] at start
          simp only [streamwindowIncrement]
          omega
        · exact start
      · intro streamId start
        rw [streamOf_setStream]
        split
        · next its =>
          subst its
          rwa [streamOf_of_some found] at start
        · exact start
      · constructor
        · exact rest.ccontrol
        · rw [setStream]
          simp [Function.update_of_ne (Ne.symm positive), rest.noStream]
        · exact rest.low
        · exact rest.high

theorem Received.trans (first : Received e₁ e₂ arrived sent)
    (second : Received e₂ e₃ arrived' sent') :
    Received e₁ e₃ (arrived ++ arrived') (sent ++ sent') := by
  constructor
  · exact first.balance.trans second.balance
  · intro streamId positive open_
    exact (first.stream streamId positive open_).trans
      (second.stream streamId positive (by rwa [first.opened]))
  · intro streamId
    rw [second.opened, first.opened]
  · exact fun start => second.credit_nonneg (first.credit_nonneg start)
  · exact fun streamId start =>
      second.streamCredit_nonneg streamId (first.streamCredit_nonneg streamId start)
  · exact fun streamId start => second.streamHigh streamId (first.streamHigh streamId start)
  · exact second.rest

/-- The windows have room for what arrives. -/
structure Room (e : HopEnd H) (cell : HopCell) : Prop where
  sendme : cell.command = .sendme → cell.streamId = 0 →
    e.packageWindow + circwindowIncrement ≤ circwindowStartMax
  streamSendme : cell.command = .sendme → ∀ conn, e.streams cell.streamId = some conn →
    conn.packageWindow + streamwindowIncrement ≤ streamwindowStartMax
  streamData : cell.command = .data → ∀ conn, e.streams cell.streamId = some conn →
    0 < conn.deliverWindow

/-- An end at rest takes any cell it has room for; it can only refuse the digest of a SENDME. -/
theorem circuitReceiveRelayCell_received (rest : AtRest e) (room : Room e cell)
    (reading : Reading) :
    circuitReceiveRelayCell rd reading cell e = .error .invalidSendme
      ∨ ∃ e' sent, circuitReceiveRelayCell rd reading cell e = .ok (e', sent)
        ∧ Received e e' [cell] sent := by
  have absorbed : WindowCall e { e with receiveDigest := rd.add e.receiveDigest cell } [] :=
    windowCall_idle rfl rfl rfl rfl (by simp)
  have rest₀ : AtRest { e with receiveDigest := rd.add e.receiveDigest cell } :=
    ⟨rest.ccontrol, rest.noStream, rest.low, rest.high⟩
  obtain ⟨e₁, recorded, call, deliver, streams, -⟩ := sendmeRecordReceivedCellDigest_call rd rest₀
  have before := (absorbed.received rest rfl).trans (call.received rest₀ deliver)
  have packageWindow : e₁.packageWindow = e.packageWindow :=
    (sendmeRecordReceivedCellDigest_sender rd recorded).packageWindow
  simp only [circuitReceiveRelayCell, recorded]
  cases command : cell.command with
  | data =>
    right
    obtain ⟨e₂, sent, result, received⟩ := handleRelayData_received rd before.rest command reading
      (by
        rw [streams]
        exact room.streamData command)
    exact ⟨e₂, sent, result, before.trans received⟩
  | sendme =>
    obtain refused | ⟨e₂, result, received⟩ := processSendmeCell_received before.rest command
      reading.consensus reading.env
      (by
        rw [packageWindow]
        exact room.sendme command)
      (by
        rw [streams]
        exact room.streamSendme command)
    · exact .inl (except_map_eq_error.mpr refused)
    · exact .inr ⟨e₂, [], except_map_eq_ok.mpr ⟨e₂, result, rfl⟩, before.trans received⟩
  | other =>
    right
    have ignored : Received e₁ e₁ [cell] [] := by
      constructor
      · exact balance_idle rfl rfl rfl rfl (by simp [command]) (by simp [command])
      · exact fun _ _ _ =>
          streamBalance_idle rfl rfl rfl (by simp [command]) (by simp [command])
      · exact fun _ => rfl
      · exact fun start => start
      · exact fun _ start => start
      · exact fun _ start => start
      · exact before.rest
    exact ⟨e₁, [], rfl, before.trans ignored⟩

end

end RendezMix.Guarantees.WindowMoves
