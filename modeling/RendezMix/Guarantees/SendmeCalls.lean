import RendezMix.Library.Words
import RendezMix.Source.Sendme

/-!
# What the SENDME calls change

An end of a hop has a sending side (the package window or the congestion
control object, and the recorded digests) and a receiving side (the deliver
window). Sending a SENDME leaves the sending side alone, so that each side can
be followed by itself.
-/
namespace RendezMix.Guarantees.SendmeCalls
open Library.ByteStrings Source

theorem except_map_eq_ok {ε α β : Type} {f : α → β} {r : Except ε α} {b : β} :
    r.map f = .ok b ↔ ∃ a, r = .ok a ∧ f a = b := by
  cases r <;> simp [Except.map]

theorem except_map_eq_error {ε α β : Type} {f : α → β} {r : Except ε α} {err : ε} :
    r.map f = .error err ↔ r = .error err := by
  cases r <;> simp [Except.map]

variable {H : Type} (rd : RunningDigest H)

/-! ## Packaging a relay cell -/

theorem circuitSentCellForSendme_congr {e e' : HopEnd H} (ccontrol : e'.ccontrol = e.ccontrol)
    (packageWindow : e'.packageWindow = e.packageWindow) :
    circuitSentCellForSendme e' = circuitSentCellForSendme e := by
  rw [circuitSentCellForSendme, circuitSentCellForSendme, ccontrol, packageWindow]

theorem sendmeGetIncCount_congr {e e' : HopEnd H} (ccontrol : e'.ccontrol = e.ccontrol) :
    sendmeGetIncCount e' = sendmeGetIncCount e := by
  rw [sendmeGetIncCount, sendmeGetIncCount, ccontrol]

variable (streamId : UInt16) (cell : HopCell) (consensus : SendmeConsensus) {reading : Reading}
  (fuel : Nat) (conn : EdgeConnection) (e : HopEnd H)

theorem sendmeGetIncCount_pos : 0 < sendmeGetIncCount e := by
  rw [sendmeGetIncCount]
  split
  · next cc _ =>
    have some_ : cc.sendmeInc.toNat ≠ 0 := fun zero =>
      cc.sendmeInc_ne_zero (UInt8.toNat_inj.mp zero)
    omega
  · decide

theorem relaySendCommandFromEdge_eq :
    relaySendCommandFromEdge rd cell e =
      { e with
        sendDigest := rd.add e.sendDigest cell
        sendmeDigest := if circuitSentCellForSendme e then rd.get (rd.add e.sendDigest cell)
          else e.sendmeDigest
        sendmeLastDigests := if cell.command = .data ∧ circuitSentCellForSendme e
          then e.sendmeLastDigests ++ [rd.get (rd.add e.sendDigest cell)]
          else e.sendmeLastDigests } := by
  have encrypted : circuitSentCellForSendme { e with sendDigest := rd.add e.sendDigest cell }
      = circuitSentCellForSendme e := circuitSentCellForSendme_congr rfl rfl
  simp only [relaySendCommandFromEdge, sendmeRecordSendingCellDigest, encrypted]
  cases marked : circuitSentCellForSendme e with
  | false =>
    have unmarked := encrypted.trans marked
    simp [sendmeRecordCellDigestOnCirc, unmarked]
  | true =>
    have recorded : circuitSentCellForSendme
        { e with sendDigest := rd.add e.sendDigest cell
                 sendmeDigest := rd.get (rd.add e.sendDigest cell) } = true := by
      rw [← marked]
      exact circuitSentCellForSendme_congr rfl rfl
    simp only [sendmeRecordCellDigestOnCirc, if_true, recorded]
    split <;> simp [*]

@[simp] theorem relaySendCommandFromEdge_ccontrol :
    (relaySendCommandFromEdge rd cell e).ccontrol = e.ccontrol := by
  rw [relaySendCommandFromEdge_eq]

@[simp] theorem relaySendCommandFromEdge_packageWindow :
    (relaySendCommandFromEdge rd cell e).packageWindow = e.packageWindow := by
  rw [relaySendCommandFromEdge_eq]

@[simp] theorem relaySendCommandFromEdge_deliverWindow :
    (relaySendCommandFromEdge rd cell e).deliverWindow = e.deliverWindow := by
  rw [relaySendCommandFromEdge_eq]

@[simp] theorem relaySendCommandFromEdge_streams :
    (relaySendCommandFromEdge rd cell e).streams = e.streams := by
  rw [relaySendCommandFromEdge_eq]

@[simp] theorem relaySendCommandFromEdge_receiveDigest :
    (relaySendCommandFromEdge rd cell e).receiveDigest = e.receiveDigest := by
  rw [relaySendCommandFromEdge_eq]

@[simp] theorem relaySendCommandFromEdge_sendDigest :
    (relaySendCommandFromEdge rd cell e).sendDigest = rd.add e.sendDigest cell := by
  rw [relaySendCommandFromEdge_eq]

/-! ## The sending side -/

/-- The sending side is the same. -/
structure SameSender (e e' : HopEnd H) : Prop where
  ccontrol : e'.ccontrol = e.ccontrol
  packageWindow : e'.packageWindow = e.packageWindow
  digests : e'.sendmeLastDigests = e.sendmeLastDigests

theorem SameSender.refl : SameSender e e := ⟨rfl, rfl, rfl⟩

theorem SameSender.trans {e₁ e₂ e₃ : HopEnd H} (first : SameSender e₁ e₂)
    (second : SameSender e₂ e₃) : SameSender e₁ e₃ :=
  ⟨second.ccontrol.trans first.ccontrol, second.packageWindow.trans first.packageWindow,
    second.digests.trans first.digests⟩

theorem relaySendCommandFromEdge_sender {cell : HopCell} (other : cell.command ≠ .data)
    (e : HopEnd H) : SameSender e (relaySendCommandFromEdge rd cell e) := by
  constructor
  · exact relaySendCommandFromEdge_ccontrol rd cell e
  · exact relaySendCommandFromEdge_packageWindow rd cell e
  · rw [relaySendCommandFromEdge_eq]
    exact if_neg fun both => other both.1

theorem sendCircuitLevelSendme_sender (digest : Bytes 20) (e : HopEnd H) :
    SameSender e (sendCircuitLevelSendme rd consensus digest e).1 := by
  simp only [sendCircuitLevelSendme]
  apply relaySendCommandFromEdge_sender
  simp

theorem circuitConsiderSendingLoop_sender :
    SameSender e (circuitConsiderSendingLoop rd consensus fuel e).1 := by
  induction fuel generalizing e with
  | zero => exact SameSender.refl e
  | succ fuel ih =>
    rw [circuitConsiderSendingLoop]
    split
    · have sent := sendCircuitLevelSendme_sender rd consensus e.sendmeDigest
        { e with deliverWindow := e.deliverWindow + sendmeGetIncCount e }
      have passed : SameSender e _ := ⟨sent.ccontrol, sent.packageWindow, sent.digests⟩
      exact passed.trans (ih _)
    · exact SameSender.refl e

theorem circuitConsiderSendingLoop_streams :
    (circuitConsiderSendingLoop rd consensus fuel e).1.streams = e.streams := by
  induction fuel generalizing e with
  | zero => rfl
  | succ fuel ih =>
    rw [circuitConsiderSendingLoop]
    split
    · rw [ih]
      simp [sendCircuitLevelSendme]
    · rfl

section

variable (outbufTooFull : Bool) {sent : List HopCell}

theorem edgeConsiderSendingLoop_sender :
    SameSender e (edgeConsiderSendingLoop rd streamId fuel conn e).1 := by
  induction fuel generalizing conn e with
  | zero => exact SameSender.refl e
  | succ fuel ih =>
    rw [edgeConsiderSendingLoop]
    split
    · have sent : SameSender _ (relaySendCommandFromEdge rd ⟨.sendme, streamId, []⟩
          (e.setStream streamId
            { conn with deliverWindow := conn.deliverWindow + streamwindowIncrement })) :=
        relaySendCommandFromEdge_sender rd (by simp) _
      have passed : SameSender e _ := ⟨sent.ccontrol, sent.packageWindow, sent.digests⟩
      exact passed.trans (ih _ _)
    · exact SameSender.refl e

theorem sendmeConnectionEdgeConsiderSending_sender (e : HopEnd H) :
    SameSender e (sendmeConnectionEdgeConsiderSending rd streamId outbufTooFull e).1 := by
  rw [sendmeConnectionEdgeConsiderSending]
  split
  · exact SameSender.refl e
  · split
    · exact SameSender.refl e
    · exact edgeConsiderSendingLoop_sender rd streamId _ _ e

theorem sendmeRecordReceivedCellDigest_sender {e e' : HopEnd H}
    (result : sendmeRecordReceivedCellDigest rd e = .ok e') : SameSender e e' := by
  rw [sendmeRecordReceivedCellDigest] at result
  split at result
  · cases result
  · cases result
    exact ⟨rfl, rfl, rfl⟩
  · cases result
    exact SameSender.refl e

theorem sendmeStreamDataReceived_sender :
    SameSender e (sendmeStreamDataReceived streamId conn e).1 := by
  rw [sendmeStreamDataReceived]
  split <;> exact ⟨rfl, rfl, rfl⟩

theorem handleStreamData_sender {cell : HopCell} {sent sent' : List HopCell} {e e' : HopEnd H}
    (result : handleStreamData rd reading cell sent e = .ok (e', sent')) : SameSender e e' := by
  rw [handleStreamData] at result
  split at result
  · cases result
    exact SameSender.refl e
  split at result
  · cases result
    exact SameSender.refl e
  · next conn _ =>
    have received := sendmeStreamDataReceived_sender cell.streamId conn e
    simp only at result
    split at result
    · cases result
    split at result
    · cases result
      exact received
    · cases result
      exact received.trans (sendmeConnectionEdgeConsiderSending_sender rd _ _ _)

theorem handleRelayData_sender {cell : HopCell} {e e' : HopEnd H}
    (result : handleRelayData rd reading cell e = .ok (e', sent)) : SameSender e e' := by
  simp only [handleRelayData] at result
  split at result
  · cases result
  · have received : SameSender e (sendmeCircuitDataReceived e).1 := ⟨rfl, rfl, rfl⟩
    have considered := circuitConsiderSendingLoop_sender rd reading.consensus
      (circwindowStart - (sendmeCircuitDataReceived e).1.deliverWindow).toNat
      (sendmeCircuitDataReceived e).1
    exact (received.trans considered).trans (handleStreamData_sender rd result)

theorem sendmeNoteStreamDataPackaged_sender (xoffReceived : Bool) (e : HopEnd H) :
    SameSender e (sendmeNoteStreamDataPackaged streamId conn xoffReceived e).1 := by
  rw [sendmeNoteStreamDataPackaged]
  split <;> exact ⟨rfl, rfl, rfl⟩

theorem sendmeProcessStreamLevel_sender {streamId : UInt16} {conn : EdgeConnection}
    {e e' : HopEnd H} (result : sendmeProcessStreamLevel streamId conn e = .ok e') :
    SameSender e e' := by
  rw [sendmeProcessStreamLevel] at result
  split at result
  · cases result
  split at result
  · cases result
  · cases result
    exact ⟨rfl, rfl, rfl⟩

/-! ## The cells a call sends -/

theorem circuitConsiderSendingLoop_cells :
    ∀ cell ∈ (circuitConsiderSendingLoop rd consensus fuel e).2,
      cell.command = .sendme ∧ cell.streamId = 0 := by
  induction fuel generalizing e with
  | zero => simp [circuitConsiderSendingLoop]
  | succ fuel ih =>
    rw [circuitConsiderSendingLoop]
    split
    · exact List.forall_mem_cons.mpr ⟨⟨rfl, rfl⟩, ih _⟩
    · simp

theorem edgeConsiderSendingLoop_cells :
    ∀ cell ∈ (edgeConsiderSendingLoop rd streamId fuel conn e).2,
      cell = ⟨.sendme, streamId, []⟩ := by
  induction fuel generalizing conn e with
  | zero => simp [edgeConsiderSendingLoop]
  | succ fuel ih =>
    rw [edgeConsiderSendingLoop]
    split
    · exact List.forall_mem_cons.mpr ⟨rfl, ih _ _⟩
    · simp

theorem sendmeConnectionEdgeConsiderSending_cells (e : HopEnd H) :
    ∀ cell ∈ (sendmeConnectionEdgeConsiderSending rd streamId outbufTooFull e).2,
      cell = ⟨.sendme, streamId, []⟩ := by
  rw [sendmeConnectionEdgeConsiderSending]
  split
  · simp
  · split
    · simp
    · exact edgeConsiderSendingLoop_cells rd streamId _ _ e

theorem handleRelayData_cells {cell : HopCell} {e e' : HopEnd H}
    (result : handleRelayData rd reading cell e = .ok (e', sent)) :
    ∀ c ∈ sent, c.command = .sendme := by
  simp only [handleRelayData] at result
  split at result
  · cases result
  have circuits : ∀ c ∈ (sendmeCircuitConsiderSending rd reading.consensus
      (sendmeCircuitDataReceived e).1).2, c.command = .sendme := fun c member =>
    (circuitConsiderSendingLoop_cells rd _ _ _ c member).1
  rw [handleStreamData] at result
  split at result
  · cases result
    exact circuits
  split at result
  · cases result
    exact circuits
  · simp only at result
    split at result
    · cases result
    split at result
    · cases result
      exact circuits
    · cases result
      intro c member
      obtain circuit | stream := List.mem_append.mp member
      · exact circuits c circuit
      · rw [sendmeConnectionEdgeConsiderSending_cells rd _ _ _ c stream]

end

/-! ## How many SENDMEs are due -/

theorem circuitConsiderSendingLoop_idle {consensus : SendmeConsensus} {e : HopEnd H}
    (idle : circwindowStart - sendmeGetIncCount e < e.deliverWindow) (fuel : Nat) :
    circuitConsiderSendingLoop rd consensus fuel e = (e, []) := by
  cases fuel with
  | zero => rfl
  | succ fuel =>
    rw [circuitConsiderSendingLoop]
    exact if_neg (by omega)

theorem sendmeCircuitConsiderSending_idle {e : HopEnd H}
    (idle : circwindowStart - sendmeGetIncCount e < e.deliverWindow) :
    sendmeCircuitConsiderSending rd consensus e = (e, []) :=
  circuitConsiderSendingLoop_idle rd idle _

/-- One SENDME is due, and one is sent. -/
theorem sendmeCircuitConsiderSending_once {e : HopEnd H}
    (low : e.deliverWindow ≤ circwindowStart - sendmeGetIncCount e)
    (high : circwindowStart - sendmeGetIncCount e < e.deliverWindow + sendmeGetIncCount e) :
    sendmeCircuitConsiderSending rd consensus e =
      ((sendCircuitLevelSendme rd consensus e.sendmeDigest
          { e with deliverWindow := e.deliverWindow + sendmeGetIncCount e }).1,
        [(sendCircuitLevelSendme rd consensus e.sendmeDigest
          { e with deliverWindow := e.deliverWindow + sendmeGetIncCount e }).2]) := by
  obtain ⟨fuel, passes⟩ : ∃ fuel, (circwindowStart - e.deliverWindow).toNat = fuel + 1 :=
    ⟨(circwindowStart - e.deliverWindow).toNat - 1, by omega⟩
  rw [sendmeCircuitConsiderSending, passes, circuitConsiderSendingLoop, if_pos low]
  have inc := (sendCircuitLevelSendme_sender rd consensus e.sendmeDigest
    { e with deliverWindow := e.deliverWindow + sendmeGetIncCount e }).ccontrol
  have done : circwindowStart - sendmeGetIncCount (sendCircuitLevelSendme rd consensus
      e.sendmeDigest { e with deliverWindow := e.deliverWindow + sendmeGetIncCount e }).1
      < (sendCircuitLevelSendme rd consensus e.sendmeDigest
        { e with deliverWindow := e.deliverWindow + sendmeGetIncCount e }).1.deliverWindow := by
    rw [sendmeGetIncCount_congr (inc.trans rfl : _ = e.ccontrol)]
    simpa [sendCircuitLevelSendme] using high
  simp only [circuitConsiderSendingLoop_idle rd done]

/-! ## The gate of packaging -/

theorem inflight_lt_of_window {e : HopEnd H} {cc : CongestionControl}
    (ccontrol : e.ccontrol = some cc) (open_ : 0 < congestionControlGetPackageWindow e) :
    cc.inflight.toNat < cc.cwnd.toNat := by
  rw [congestionControlGetPackageWindow, ccontrol] at open_
  simp only at open_
  split at open_
  · omega
  · next below =>
    rw [gt_iff_lt, UInt64.lt_iff_toNat_lt] at below
    by_contra full
    have same : cc.cwnd - cc.inflight = 0 := by
      rw [← UInt64.toNat_inj, Library.Words.uint64_toNat_sub (by omega)]
      simp
      omega
    rw [same] at open_
    exact absurd open_ (by decide)

end RendezMix.Guarantees.SendmeCalls
