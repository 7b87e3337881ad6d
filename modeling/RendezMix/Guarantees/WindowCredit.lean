import RendezMix.Guarantees.WindowMoves
import RendezMix.Library.CreditLoop

/-!
# Fixed windows conserve credit

Each direction of a hop is a credit loop, and so is each direction of a stream:
the package window is the credit, DATA cells are the items, the deliver window
falls by what is held, and SENDMEs return it. The calls of two honest ends only
move credit around these loops.
-/
namespace RendezMix.Guarantees.WindowCredit
open Library.ByteStrings Library.CreditLoop Library.Runs Source SendmeCalls WindowMoves

variable {H : Type} (rd : RunningDigest H)

/-- The credit of the cells that `side` sends. -/
def circuitLoop (w : Exchange H) (side : Side) : Loop where
  credit := (w.ends side).packageWindow
  inFlight := dataCells (w.flight side)
  held := circwindowStart - (w.ends side.other).deliverWindow
  returning := sendmesOn 0 (w.flight side.other)

/-- The credit of a stream for the cells that `side` sends on it. -/
def streamLoop (w : Exchange H) (side : Side) (streamId : UInt16) : Loop where
  credit := (streamOf (w.ends side) streamId).packageWindow
  inFlight := dataOn streamId (w.flight side)
  held := streamwindowStart - (streamOf (w.ends side.other) streamId).deliverWindow
  returning := sendmesOn streamId (w.flight side.other)

/-- All loops are whole, no package window is negative, and both ends are at rest. -/
structure Credited (start : Side → Int) (openStreams : UInt16 → Bool) (w : Exchange H) :
    Prop where
  rest : ∀ side, AtRest (w.ends side)
  opened : ∀ side streamId, ((w.ends side).streams streamId).isSome = openStreams streamId
  credit : ∀ side, (circuitLoop w side).total circwindowIncrement = start side
  streamCredit : ∀ side, ∀ streamId ≠ 0, openStreams streamId = true →
    (streamLoop w side streamId).total streamwindowIncrement = streamwindowStart
  credit_nonneg : ∀ side, 0 ≤ (w.ends side).packageWindow
  streamCredit_nonneg : ∀ side streamId, 0 ≤ (streamOf (w.ends side) streamId).packageWindow
  streamHigh : ∀ side streamId,
    (streamOf (w.ends side) streamId).deliverWindow ≤ streamwindowStart

/-! ## One call moves credit -/

variable {w : Exchange H} {side : Side} {e' : HopEnd H} {arrived sent cells : List HopCell}

section

variable (flight : w.flight side.other = arrived ++ cells)
  (received : Received (w.ends side) e' arrived sent)

include flight received

theorem circuitLoop_moves (direction : Side) :
    Moves circwindowIncrement (circuitLoop w direction)
      (circuitLoop ((w.arrive side cells).sent rd side (e', sent)) direction) := by
  have balance := received.balance
  have different := side.other_ne
  by_cases same : direction = side
  · subst same
    apply moves_of_sender (sendmesOn 0 arrived) (dataCells sent)
    · simpa [circuitLoop, Exchange.sent, Exchange.arrive] using balance.credit
    · simp [circuitLoop, Exchange.sent, Exchange.arrive, different.symm]
    · simp [circuitLoop, Exchange.sent, Exchange.arrive, different]
    · simp [circuitLoop, Exchange.sent, Exchange.arrive, different, flight]
  · have opposite : direction = side.other := by
      cases direction <;> cases side <;> simp_all [Side.other]
    subst opposite
    apply moves_of_receiver (sendmesOn 0 sent) (dataCells arrived)
    · simp [circuitLoop, Exchange.sent, Exchange.arrive, different]
    · simp [circuitLoop, Exchange.sent, Exchange.arrive, different, flight]
    · simpa [circuitLoop, Exchange.sent, Exchange.arrive] using balance.owed
    · simp [circuitLoop, Exchange.sent, Exchange.arrive, different.symm]

theorem streamLoop_moves {streamId : UInt16} (positive : streamId ≠ 0)
    (open_ : ((w.ends side).streams streamId).isSome) (direction : Side) :
    Moves streamwindowIncrement (streamLoop w direction streamId)
      (streamLoop ((w.arrive side cells).sent rd side (e', sent)) direction streamId) := by
  have balance := received.stream streamId positive open_
  have different := side.other_ne
  by_cases same : direction = side
  · subst same
    apply moves_of_sender (sendmesOn streamId arrived) (dataOn streamId sent)
    · simpa [streamLoop, Exchange.sent, Exchange.arrive] using balance.credit
    · simp [streamLoop, Exchange.sent, Exchange.arrive, different.symm]
    · simp [streamLoop, Exchange.sent, Exchange.arrive, different]
    · simp [streamLoop, Exchange.sent, Exchange.arrive, different, flight]
  · have opposite : direction = side.other := by
      cases direction <;> cases side <;> simp_all [Side.other]
    subst opposite
    apply moves_of_receiver (sendmesOn streamId sent) (dataOn streamId arrived)
    · simp [streamLoop, Exchange.sent, Exchange.arrive, different]
    · simp [streamLoop, Exchange.sent, Exchange.arrive, different, flight]
    · simpa [streamLoop, Exchange.sent, Exchange.arrive] using balance.owed
    · simp [streamLoop, Exchange.sent, Exchange.arrive, different.symm]

end

variable {start : Side → Int} {openStreams : UInt16 → Bool}

section

variable (credited : Credited start openStreams w)

include credited

theorem Credited.received (flight : w.flight side.other = arrived ++ cells)
    (received : Received (w.ends side) e' arrived sent) :
    Credited start openStreams ((w.arrive side cells).sent rd side (e', sent)) := by
  have ends (side' : Side) : ((w.arrive side cells).sent rd side (e', sent)).ends side'
      = if side' = side then e' else w.ends side' := by
    simp [Exchange.sent, Exchange.arrive, Function.update_apply]
  constructor
  · intro side'
    rw [ends]
    split
    · exact received.rest
    · exact credited.rest side'
  · intro side' streamId
    rw [ends]
    split
    · rw [received.opened, credited.opened]
    · exact credited.opened side' streamId
  · intro direction
    rw [(circuitLoop_moves rd flight received direction).total]
    exact credited.credit direction
  · intro direction streamId positive open_
    have opened := (credited.opened side streamId).trans open_
    rw [(streamLoop_moves rd flight received positive opened direction).total]
    exact credited.streamCredit direction streamId positive open_
  · intro side'
    rw [ends]
    split
    · exact received.credit_nonneg (credited.credit_nonneg side)
    · exact credited.credit_nonneg side'
  · intro side' streamId
    rw [ends]
    split
    · exact received.streamCredit_nonneg streamId (credited.streamCredit_nonneg side streamId)
    · exact credited.streamCredit_nonneg side' streamId
  · intro side' streamId
    rw [ends]
    split
    · exact received.streamHigh streamId (credited.streamHigh side streamId)
    · exact credited.streamHigh side' streamId

/-! ## No window is exceeded -/

theorem Credited.deliver_nonneg (bounded : start side.other
    ≤ circwindowStart) : 0 ≤ (w.ends side).deliverWindow := by
  have whole := credited.credit side.other
  have credit := credited.credit_nonneg side.other
  simp only [Loop.total, circuitLoop, Side.other_other] at whole
  simp only [circwindowStart, circwindowIncrement] at *
  omega

theorem Credited.streamDeliver_nonneg (side : Side) {streamId : UInt16} (positive : streamId ≠ 0)
    (open_ : openStreams streamId = true) :
    (0 : Int) ≤ (streamOf (w.ends side) streamId).deliverWindow := by
  have whole := credited.streamCredit side.other streamId positive open_
  have credit := credited.streamCredit_nonneg side.other streamId
  simp only [Loop.total, streamLoop, Side.other_other] at whole
  simp only [streamwindowStart, streamwindowIncrement] at *
  omega

/-- An end has room for the next cell in flight to it. -/
theorem Credited.room (bounded : start side ≤ circwindowStart) {cell : HopCell}
    (flight : w.flight side.other = cell :: cells) : Room (w.ends side) cell := by
  have named {conn : EdgeConnection} (found : (w.ends side).streams cell.streamId = some conn) :
      cell.streamId ≠ 0 ∧ openStreams cell.streamId = true := by
    constructor
    · intro zero
      rw [zero, (credited.rest side).noStream] at found
      cases found
    · rw [← credited.opened side, found, Option.isSome_some]
  constructor
  · intro sendme zero
    have whole := credited.credit side
    have high := (credited.rest side.other).high
    have returning : 0 < sendmesOn 0 (w.flight side.other) := by
      rw [flight, ← List.singleton_append, sendmesOn_append, sendmesOn_single,
        if_pos ⟨sendme, zero⟩]
      omega
    simp only [Loop.total, circuitLoop] at whole
    simp only [circwindowStart, circwindowIncrement, circwindowStartMax] at *
    omega
  · intro sendme conn found
    obtain ⟨positive, open_⟩ := named found
    have whole := credited.streamCredit side cell.streamId positive open_
    have high := credited.streamHigh side.other cell.streamId
    have returning : 0 < sendmesOn cell.streamId (w.flight side.other) := by
      rw [flight, ← List.singleton_append, sendmesOn_append, sendmesOn_single,
        if_pos ⟨sendme, rfl⟩]
      omega
    simp only [Loop.total, streamLoop, streamOf_of_some found] at whole
    simp only [streamwindowStart, streamwindowIncrement, streamwindowStartMax] at *
    omega
  · intro data conn found
    obtain ⟨positive, open_⟩ := named found
    have whole := credited.streamCredit side.other cell.streamId positive open_
    have credit := credited.streamCredit_nonneg side.other cell.streamId
    have inFlight : 0 < dataOn cell.streamId (w.flight side.other) := by
      rw [flight, ← List.singleton_append, dataOn_append, dataOn_single, if_pos ⟨data, rfl⟩]
      omega
    simp only [Loop.total, streamLoop, Side.other_other, streamOf_of_some found] at whole
    simp only [streamwindowStart, streamwindowIncrement] at *
    omega

end

/-! ## Steps and runs -/

section

variable {circwindow : Side → Option Int}

theorem arrive_self (w : Exchange H) (side : Side) : w.arrive side (w.flight side.other) = w := by
  rw [Exchange.arrive, Function.update_eq_self]

theorem Credited.called (credited : Credited start openStreams w)
    (received : Received (w.ends side) e' [] sent) : Credited start openStreams (w.sent rd side (e', sent)) := by
  have kept := credited.received rd (List.nil_append (w.flight side.other)).symm received
  rwa [arrive_self] at kept

/-- A step keeps the credit, or refuses the digest of a SENDME. -/
theorem exchangeStep_credited (credited : Credited start openStreams w)
    (bounded : ∀ side, start side ≤ circwindowStart) (ev : ExchangeEvent) :
    exchangeStep rd w ev = .error .invalidSendme
      ∨ ∃ w', exchangeStep rd w ev = .ok w' ∧ Credited start openStreams w' := by
  cases ev with
  | package side streamId xoffReceived inbuf maxCells =>
    right
    have rest := credited.rest side
    obtain ⟨e', sent, result, call, deliver⟩ := connectionEdgePackageRawInbuf_call rd
      streamId rest.ccontrol xoffReceived inbuf maxCells
    exact ⟨_, except_map_eq_ok.mpr ⟨_, result, rfl⟩,
      credited.called rd (call.received rest deliver)⟩
  | deliver side reading =>
    rw [exchangeStep]
    split
    · exact .inr ⟨w, rfl, credited⟩
    · next cell cells flight =>
      have room := credited.room (bounded side) flight
      obtain refused | ⟨e', sent, result, received⟩ :=
        circuitReceiveRelayCell_received rd (credited.rest side) room reading
      · exact .inl (except_map_eq_error.mpr refused)
      · exact .inr ⟨_, except_map_eq_ok.mpr ⟨_, result, rfl⟩, credited.received rd flight received⟩
  | flushed side streamId outbufTooFull =>
    right
    have rest := credited.rest side
    have call := sendmeConnectionEdgeConsiderSending_call rd streamId rest.noStream outbufTooFull
    exact ⟨_, except_map_eq_ok.mpr ⟨_, rfl, rfl⟩,
      credited.called rd (call.1.received rest call.2)⟩
  | send side streamId payload =>
    right
    have rest := credited.rest side
    have call : WindowCall (w.ends side)
        (relaySendCommandFromEdge rd ⟨.other, streamId, payload⟩ (w.ends side))
        [⟨.other, streamId, payload⟩] :=
      windowCall_idle (relaySendCommandFromEdge_packageWindow rd _ _)
        (relaySendCommandFromEdge_deliverWindow rd _ _) (relaySendCommandFromEdge_streams rd _ _)
        (relaySendCommandFromEdge_ccontrol rd _ _) (by simp)
    exact ⟨_, except_map_eq_ok.mpr ⟨_, rfl, rfl⟩, credited.called rd
      (call.received rest (relaySendCommandFromEdge_deliverWindow rd _ _))⟩

theorem FreshExchange.credited (fresh : FreshExchange w circwindow (fun _ => none) openStreams) :
    Credited (fun side => circuitInitialPackageWindow (circwindow side)) openStreams w := by
  have windows (side : Side) : (w.ends side).packageWindow
        = circuitInitialPackageWindow (circwindow side)
      ∧ (w.ends side).deliverWindow = circwindowStart ∧ (w.ends side).ccontrol = none := by
    obtain ⟨digest, send, receive, ends⟩ := fresh.ends side
    rw [ends]
    exact ⟨rfl, rfl, rfl⟩
  have streams (side : Side) (streamId : UInt16) : (w.ends side).streams streamId
      = if openStreams streamId then some ⟨streamwindowStart, streamwindowStart⟩ else none := by
    obtain ⟨digest, send, receive, ends⟩ := fresh.ends side
    rw [ends]
    rfl
  have full (side : Side) (streamId : UInt16) :
      streamOf (w.ends side) streamId = ⟨streamwindowStart, streamwindowStart⟩ := by
    rw [streamOf, streams]
    split <;> rfl
  constructor
  · intro side
    constructor
    · exact (windows side).2.2
    · rw [streams, fresh.noStream]
      rfl
    · rw [(windows side).2.1]
      decide
    · rw [(windows side).2.1]
  · intro side streamId
    rw [streams]
    split
    · next open_ => rw [open_, Option.isSome_some]
    · next closed => rw [Option.isSome_none, Bool.eq_false_iff.mpr closed]
  · intro side
    simp [Loop.total, circuitLoop, fresh.flight, windows]
  · intro side streamId _ _
    simp [Loop.total, streamLoop, fresh.flight, full]
  · intro side
    have range := circuitInitialPackageWindow_range (circwindow side)
    rw [(windows side).1]
    exact le_trans (by decide) range.1
  · intro side streamId
    rw [full]
    decide
  · intro side streamId
    rw [full]

theorem run_credited {w₀ : Exchange H}
    (fresh : FreshExchange w₀ circwindow (fun _ => none) openStreams)
    {ts : List (Transition (Exchange H) ExchangeEvent)} (run : Run (ExchangeStep rd) w₀ ts w) :
    Credited (fun side => circuitInitialPackageWindow (circwindow side)) openStreams w := by
  apply run.invariant (FreshExchange.credited fresh)
  intro w ev w' credited step
  have bounded (side : Side) := (circuitInitialPackageWindow_range (circwindow side)).2
  obtain refused | ⟨w₁, result, kept⟩ := exchangeStep_credited rd credited bounded ev
  · rw [ExchangeStep, refused] at step
    cases step
  · rw [ExchangeStep, result] at step
    cases step
    exact kept

/-! ## The conservation law -/

/-- In each direction of the circuit and of each open stream, the window of the sender, the
cells in flight, what the receiver has not refunded and the refunds in flight add up to what
the sender began with. No window is negative, a call reports no error but the refusal of a
digest, and a DATA cell brings about one SENDME of the circuit at most. -/
structure CreditLaw (circwindow : Side → Option Int) (openStreams : UInt16 → Bool)
    (w : Exchange H) : Prop where
  circuit : ∀ side, (w.ends side).packageWindow + dataCells (w.flight side)
    + (circwindowStart - (w.ends side.other).deliverWindow)
    + circwindowIncrement * sendmesOn 0 (w.flight side.other)
    = circuitInitialPackageWindow (circwindow side)
  nonneg : ∀ side, 0 ≤ (w.ends side).packageWindow ∧ 0 ≤ (w.ends side).deliverWindow
  stream : ∀ side streamId, openStreams streamId = true → ∃ conn conn',
    (w.ends side).streams streamId = some conn
      ∧ (w.ends side.other).streams streamId = some conn'
      ∧ conn.packageWindow + dataOn streamId (w.flight side)
        + (streamwindowStart - conn'.deliverWindow)
        + streamwindowIncrement * sendmesOn streamId (w.flight side.other) = streamwindowStart
      ∧ 0 ≤ conn.packageWindow ∧ 0 ≤ conn.deliverWindow
  errors : ∀ ev err, exchangeStep rd w ev = .error err → err = .invalidSendme
  single : ∀ side cell consensus e,
    sendmeRecordReceivedCellDigest rd
      { w.ends side with receiveDigest := rd.add (w.ends side).receiveDigest cell } = .ok e →
    (sendmeCircuitConsiderSending rd consensus (sendmeCircuitDataReceived e).1).2.length ≤ 1

/-- The law holds after every run of a new hop with fixed windows. -/
theorem credit_conserved {w₀ : Exchange H} {circwindow : Side → Option Int}
    (fresh : FreshExchange w₀ circwindow (fun _ => none) openStreams)
    {ts : List (Transition (Exchange H) ExchangeEvent)} (run : Run (ExchangeStep rd) w₀ ts w) :
    CreditLaw rd circwindow openStreams w := by
  have credited := run_credited rd fresh run
  have bounded (side : Side) := (circuitInitialPackageWindow_range (circwindow side)).2
  constructor
  · exact credited.credit
  · intro side
    exact ⟨credited.credit_nonneg side, credited.deliver_nonneg (bounded side.other)⟩
  · intro side streamId open_
    have positive : streamId ≠ 0 := by
      rintro rfl
      rw [fresh.noStream] at open_
      cases open_
    obtain ⟨conn, found⟩ := Option.isSome_iff_exists.mp ((credited.opened side streamId).trans open_)
    obtain ⟨conn', found'⟩ :=
      Option.isSome_iff_exists.mp ((credited.opened side.other streamId).trans open_)
    have whole := credited.streamCredit side streamId positive open_
    have credit := credited.streamCredit_nonneg side streamId
    have deliver := credited.streamDeliver_nonneg side positive open_
    simp only [Loop.total, streamLoop, streamOf_of_some found, streamOf_of_some found']
      at whole credit deliver
    exact ⟨conn, conn', found, found', whole, credit, deliver⟩
  · intro ev err failed
    obtain refused | ⟨w', result, -⟩ := exchangeStep_credited rd credited bounded ev
    · rw [refused] at failed
      cases failed
      rfl
    · rw [result] at failed
      cases failed
  · intro side cell consensus e recorded
    have rest := credited.rest side
    have rest₀ : AtRest
        { w.ends side with receiveDigest := rd.add (w.ends side).receiveDigest cell } :=
      ⟨rest.ccontrol, rest.noStream, rest.low, rest.high⟩
    obtain ⟨e₁, result, call, deliver, -⟩ := sendmeRecordReceivedCellDigest_call rd rest₀
    rw [recorded] at result
    cases result
    exact (circuitData_rest rd (call.received rest₀ deliver).rest consensus).2

/-- A client that starts with 500 cells packages three, of which one arrives. -/
theorem credit_conserved_three :
    ∃ w ts, Run (ExchangeStep countingDigest)
        (newExchange (fun _ => some 500) (fun _ => none) 0 (· == 7)) ts w
      ∧ (w.ends .client).packageWindow = 497 ∧ (w.ends .relay).deliverWindow = 999
      ∧ CreditLaw countingDigest (fun _ => some 500) (· == 7) w := by
  have ends : (runExchange countingDigest (fun _ => true)
      (newExchange (fun _ => some 500) (fun _ => none) 0 (· == 7))
      [.package .client 7 false (List.replicate 3 ⟨[], 0⟩) none,
        .deliver .relay steadyReading]).any fun w =>
      decide ((w.ends .client).packageWindow = 497 ∧ (w.ends .relay).deliverWindow = 999) := by
    decide +kernel
  obtain ⟨w, result, windows⟩ := (Option.any_eq_true _ _).mp ends
  obtain ⟨packaged, delivered⟩ := of_decide_eq_true windows
  obtain ⟨ts, run, -⟩ := run_of_runExchange countingDigest result
  exact ⟨w, ts, run, packaged, delivered, credit_conserved countingDigest
    (newExchange_fresh _ _ 0 rfl) run⟩

/-- The sum is not `CIRCWINDOW_START` where the consensus sets `circwindow`. -/
theorem credit_not_circwindowStart :
    ¬∀ (circwindow : Side → Option Int) (w₀ w : Exchange Nat)
      (ts : List (Transition (Exchange Nat) ExchangeEvent)),
      FreshExchange w₀ circwindow (fun _ => none) (· == 7) →
      Run (ExchangeStep countingDigest) w₀ ts w →
      ∀ side, (w.ends side).packageWindow + dataCells (w.flight side)
        + (circwindowStart - (w.ends side.other).deliverWindow)
        + circwindowIncrement * sendmesOn 0 (w.flight side.other) = circwindowStart := by
  intro always
  have whole := always (fun _ => some 500) _ _ []
    (newExchange_fresh _ (fun _ => none) 0 rfl) (Run.nil _) .client
  revert whole
  decide

end

end RendezMix.Guarantees.WindowCredit
