import RendezMix.Guarantees.CongestionAccounting
import RendezMix.Library.EveryNth

/-!
# Authenticated SENDMEs between honest ends

Each end decides by its own counters which cells complete an increment: the
sender by the cells in flight or by its package window, the receiver by its
deliver window. Both follow the same list, the digests of the DATA cells
packaged so far, and pick every `sendme_inc`-th of it: the receiver has carried
its choice as far as cells were delivered, and the sender has dropped what
SENDMEs have already acknowledged.
-/
namespace RendezMix.Guarantees.SendmeDigests
open Library.ByteStrings Library.EveryNth Library.Runs Library.Words Source SendmeCalls
  CongestionAccounting

variable {H : Type} (rd : RunningDigest H)

/-! ## The digests and SENDMEs among some cells -/

theorem dataDigests_append (state : H) (xs ys : List HopCell) :
    dataDigests rd state (xs ++ ys)
      = dataDigests rd state xs ++ dataDigests rd (xs.foldl rd.add state) ys := by
  induction xs generalizing state with
  | nil => rfl
  | cons cell xs ih =>
    rw [List.cons_append, dataDigests, dataDigests, List.foldl_cons]
    simp only [ih]
    split <;> rfl

theorem dataDigests_eq_nil {cells : List HopCell} (others : ∀ c ∈ cells, c.command ≠ .data)
    (state : H) : dataDigests rd state cells = [] := by
  induction cells generalizing state with
  | nil => rfl
  | cons cell cells ih =>
    obtain ⟨other, others⟩ := List.forall_mem_cons.mp others
    rw [dataDigests]
    simp only [if_neg other]
    exact ih others _

@[simp] theorem circuitSendmes_nil : circuitSendmes [] = [] := rfl

@[simp] theorem circuitSendmes_append (xs ys : List HopCell) :
    circuitSendmes (xs ++ ys) = circuitSendmes xs ++ circuitSendmes ys := by
  simp [circuitSendmes]

theorem circuitSendmes_eq_nil {cells : List HopCell}
    (others : ∀ c ∈ cells, ¬(c.command = .sendme ∧ c.streamId = 0)) :
    circuitSendmes cells = [] := by
  rw [circuitSendmes, List.filter_eq_nil_iff.mpr (by simpa using others), List.map_nil]

/-! ## Calls that send no SENDME of the circuit -/

/-- The running digest takes in what is sent, and the receiving side is the same. -/
structure Quiet (e e' : HopEnd H) (sent : List HopCell) : Prop where
  sendDigest : e'.sendDigest = sent.foldl rd.add e.sendDigest
  receiveDigest : e'.receiveDigest = e.receiveDigest
  deliverWindow : e'.deliverWindow = e.deliverWindow
  noStream : e.streams 0 = none → e'.streams 0 = none
  sendmes : e.streams 0 = none → circuitSendmes sent = []

variable {rd} {e e' e₁ e₂ e₃ : HopEnd H} {sent sent' : List HopCell} {streamId : UInt16}

theorem Quiet.trans (first : Quiet rd e₁ e₂ sent) (second : Quiet rd e₂ e₃ sent') :
    Quiet rd e₁ e₃ (sent ++ sent') := by
  constructor
  · rw [second.sendDigest, first.sendDigest, List.foldl_append]
  · exact second.receiveDigest.trans first.receiveDigest
  · exact second.deliverWindow.trans first.deliverWindow
  · exact fun closed => second.noStream (first.noStream closed)
  · intro closed
    rw [circuitSendmes_append, first.sendmes closed, second.sendmes (first.noStream closed)]
    rfl

theorem quiet_refl (e : HopEnd H) : Quiet rd e e [] := ⟨rfl, rfl, rfl, id, fun _ => rfl⟩

section

variable {env : CcEnv} {cell : HopCell} {consensus : SendmeConsensus} {conn : EdgeConnection}

theorem quiet_relaySendCommandFromEdge (rd : RunningDigest H) (cell : HopCell) (e : HopEnd H)
    (other : e.streams 0 = none → ¬(cell.command = .sendme ∧ cell.streamId = 0)) :
    Quiet rd e (relaySendCommandFromEdge rd cell e) [cell] := by
  constructor
  · simp
  · simp
  · simp
  · simp
  · intro closed
    apply circuitSendmes_eq_nil
    simpa using other closed

section

variable (found : e.streams streamId = some conn)

include found

theorem quiet_setStream (conn' : EdgeConnection) :
    Quiet rd e (e.setStream streamId conn') [] := by
  constructor
  · rfl
  · rfl
  · rfl
  · intro closed
    rw [HopEnd.setStream]
    by_cases zero : 0 = streamId
    · subst zero
      rw [closed] at found
      cases found
    · simp [Function.update_of_ne zero, closed]
  · exact fun _ => rfl

theorem edgeConsiderSendingLoop_quiet (fuel : Nat) :
    Quiet rd e (edgeConsiderSendingLoop rd streamId fuel conn e).1
      (edgeConsiderSendingLoop rd streamId fuel conn e).2 := by
  induction fuel generalizing e conn with
  | zero => exact quiet_refl e
  | succ fuel ih =>
    rw [edgeConsiderSendingLoop]
    split
    · have set : Quiet rd e (e.setStream streamId
          { conn with deliverWindow := conn.deliverWindow + streamwindowIncrement }) [] :=
        quiet_setStream found _
      have sent := quiet_relaySendCommandFromEdge rd ⟨.sendme, streamId, []⟩
        (e.setStream streamId
          { conn with deliverWindow := conn.deliverWindow + streamwindowIncrement }) (by
        rintro closed ⟨-, zero⟩
        simp only at zero
        rw [zero] at closed
        simp [HopEnd.setStream] at closed)
      apply (set.trans sent).trans
      apply ih
      simp [HopEnd.setStream]
    · exact quiet_refl e

end

theorem sendmeConnectionEdgeConsiderSending_quiet (rd : RunningDigest H) (streamId : UInt16)
    (outbufTooFull : Bool) (e : HopEnd H) : Quiet rd e (sendmeConnectionEdgeConsiderSending rd streamId outbufTooFull e).1
      (sendmeConnectionEdgeConsiderSending rd streamId outbufTooFull e).2 := by
  rw [sendmeConnectionEdgeConsiderSending]
  split
  · exact quiet_refl e
  · next conn found =>
    split
    · exact quiet_refl e
    · exact edgeConsiderSendingLoop_quiet found _

theorem sendmeStreamDataReceived_quiet (found : e.streams streamId = some conn) :
    Quiet rd e (sendmeStreamDataReceived streamId conn e).1 [] := by
  rw [sendmeStreamDataReceived]
  split
  · exact quiet_refl e
  · exact quiet_setStream found _

theorem handleStreamData_quiet {reading : Reading}
    (result : handleStreamData rd reading cell sent e = .ok (e', sent')) :
    ∃ more, sent' = sent ++ more ∧ Quiet rd e e' more ∧ ∀ c ∈ more, c.command ≠ .data := by
  rw [handleStreamData] at result
  split at result
  · cases result
    exact ⟨[], (List.append_nil _).symm, quiet_refl e, by simp⟩
  split at result
  · cases result
    exact ⟨[], (List.append_nil _).symm, quiet_refl e, by simp⟩
  · next conn found =>
    have received : Quiet rd e _ [] := sendmeStreamDataReceived_quiet found
    simp only at result
    split at result
    · cases result
    split at result
    · cases result
      exact ⟨[], (List.append_nil _).symm, received, by simp⟩
    · cases result
      refine ⟨_, rfl, received.trans (sendmeConnectionEdgeConsiderSending_quiet _ _ _ _), ?_⟩
      intro c member
      rw [sendmeConnectionEdgeConsiderSending_cells rd _ _ _ c member]
      simp

theorem sendmeProcessCircuitLevel_quiet {payload : List UInt8}
    (result : sendmeProcessCircuitLevel consensus env payload e = .ok e') : Quiet rd e e' [] := by
  rw [sendmeProcessCircuitLevel] at result
  split at result
  · cases result
  next digests _ =>
  cases mode : e.ccontrol with
  | none =>
    simp only [mode, sendmeProcessCircuitLevelImpl] at result
    split at result
    · cases result
    · cases result
      exact ⟨rfl, rfl, rfl, id, fun _ => rfl⟩
  | some cc =>
    simp only [mode] at result
    obtain ⟨cc', -, last⟩ := except_map_eq_ok.mp result
    cases last
    exact ⟨rfl, rfl, rfl, id, fun _ => rfl⟩

theorem processSendmeCell_quiet (result : processSendmeCell consensus env cell e = .ok e') :
    Quiet rd e e' [] := by
  rw [processSendmeCell] at result
  split at result
  · exact sendmeProcessCircuitLevel_quiet result
  split at result
  · cases result
    exact quiet_refl e
  · next conn found =>
    rw [sendmeProcessStreamLevel] at result
    split at result
    · cases result
    split at result
    · cases result
    · cases result
      exact quiet_setStream found _

theorem sendmeNoteCircuitDataPackaged_quiet (rd : RunningDigest H) (nowUsec : UInt64) (e : HopEnd H) :
    Quiet rd e (sendmeNoteCircuitDataPackaged nowUsec e).1 []
      ∧ (sendmeNoteCircuitDataPackaged nowUsec e).1.streams = e.streams := by
  simp only [sendmeNoteCircuitDataPackaged]
  split
  · exact ⟨⟨rfl, rfl, rfl, id, fun _ => rfl⟩, rfl⟩
  · exact ⟨⟨rfl, rfl, rfl, id, fun _ => rfl⟩, rfl⟩

section

variable (found : e.streams streamId = some conn) (xoffReceived : Bool)

include found

theorem sendmeNoteStreamDataPackaged_quiet :
    Quiet rd e (sendmeNoteStreamDataPackaged streamId conn xoffReceived e).1 [] := by
  rw [sendmeNoteStreamDataPackaged]
  split
  · exact quiet_refl e
  · exact quiet_setStream found _

theorem packageCell_quiet (next : InbufCell) :
    Quiet rd e
      (sendmeNoteStreamDataPackaged streamId conn xoffReceived
        (sendmeNoteCircuitDataPackaged next.nowUsec
          (relaySendCommandFromEdge rd ⟨.data, streamId, next.payload⟩ e)).1).1
      [⟨.data, streamId, next.payload⟩] := by
  have packaged : Quiet rd e (relaySendCommandFromEdge rd ⟨.data, streamId, next.payload⟩ e)
      [⟨.data, streamId, next.payload⟩] :=
    quiet_relaySendCommandFromEdge rd _ _ (by simp)
  obtain ⟨noted, streams⟩ := sendmeNoteCircuitDataPackaged_quiet rd next.nowUsec
    (relaySendCommandFromEdge rd ⟨.data, streamId, next.payload⟩ e)
  have found' := found
  rw [← relaySendCommandFromEdge_streams rd ⟨.data, streamId, next.payload⟩ e, ← streams]
    at found'
  have all := (packaged.trans noted).trans
    (sendmeNoteStreamDataPackaged_quiet found' xoffReceived)
  rwa [List.append_nil, List.append_nil] at all

end

theorem connectionEdgePackageRawInbuf_quiet {xoffReceived : Bool} {inbuf : List InbufCell}
    {maxCells : Option Int} (result : connectionEdgePackageRawInbuf rd streamId xoffReceived inbuf
      maxCells e = .ok (e', sent)) : Quiet rd e e' sent := by
  induction inbuf generalizing e maxCells sent with
  | nil =>
    cases result
    exact quiet_refl _
  | cons next inbuf ih =>
    rw [connectionEdgePackageRawInbuf] at result
    split at result
    · cases result
      exact quiet_refl _
    split at result
    · cases result
      exact quiet_refl _
    split at result
    · cases result
      exact quiet_refl _
    next conn found =>
    split at result
    · cases result
      exact quiet_refl _
    simp only at result
    have one : Quiet rd e _ [_] := packageCell_quiet found xoffReceived next
    split at result
    · cases result
    split at result
    · cases result
      exact one
    · obtain ⟨rest, more, last⟩ := except_map_eq_ok.mp result
      cases last
      exact one.trans (ih more)

end

/-! ## The receiving side -/

/-- The deliver window has fallen by what is delivered beyond whole increments. -/
def Owed (inc : Nat) (e : HopEnd H) (delivered : List (Bytes 20)) : Prop :=
  e.deliverWindow + (delivered.length % inc : Nat) = circwindowStart

variable {inc : Nat} {delivered : List (Bytes 20)}

theorem sendmeRecordReceivedCellDigest_eq (rd : RunningDigest H) (owed : Owed inc e delivered)
    (count : sendmeGetIncCount e = inc) :
    sendmeRecordReceivedCellDigest rd e = .ok (if (delivered.length + 1) % inc = 0
      then { e with sendmeDigest := rd.get e.receiveDigest } else e) := by
  rw [Owed] at owed
  have next : (circwindowStart - (e.deliverWindow - 1)).tmod inc
      = ((delivered.length + 1) % inc : Nat) := by
    have received : circwindowStart - (e.deliverWindow - 1)
        = ((delivered.length % inc + 1 : Nat) : Int) := by
      rw [Nat.cast_add]
      omega
    rw [received, Int.tmod_eq_emod_of_nonneg (Int.natCast_nonneg _), ← Int.natCast_mod,
      Nat.mod_add_mod]
  rw [sendmeRecordReceivedCellDigest, circuitSendmeCellIsNext, if_pos (by omega), count, next]
  by_cases whole : (delivered.length + 1) % inc = 0
  · simp [whole]
  · have different : ((delivered.length + 1) % inc : Nat) ≠ (0 : Int) :=
      Int.natCast_ne_zero.mpr whole
    rw [decide_eq_false different, if_neg whole]

/-- The SENDME a DATA cell brings about, if it completes an increment. -/
def dueSendme (inc : Nat) (delivered : List (Bytes 20)) (digest : Bytes 20) : List (List UInt8) :=
  if (delivered.length + 1) % inc = 0 then [buildCellPayloadV1 digest] else []

theorem everyNth_dueSendme (delivered : List (Bytes 20)) (digest : Bytes 20) :
    (everyNth inc (delivered ++ [digest])).map buildCellPayloadV1
      = (everyNth inc delivered).map buildCellPayloadV1 ++ dueSendme inc delivered digest := by
  rw [everyNth_snoc, dueSendme]
  split <;> simp

theorem succ_mod_of_ne {n : Nat} (next : (n + 1) % inc ≠ 0) : (n + 1) % inc = n % inc + 1 := by
  obtain rfl | positive := Nat.eq_zero_or_pos inc
  · simp
  · have small := Nat.mod_lt n positive
    have carried : n % inc + 1 ≠ inc := by
      intro full
      rw [← Nat.mod_add_mod, full, Nat.mod_self] at next
      exact next rfl
    rw [← Nat.mod_add_mod, Nat.mod_eq_of_lt (by omega)]

theorem succ_mod_full {n : Nat} (positive : 0 < inc) (next : (n + 1) % inc = 0) :
    n % inc + 1 = inc := by
  have small := Nat.mod_lt n positive
  rw [← Nat.mod_add_mod] at next
  by_contra less
  rw [Nat.mod_eq_of_lt (by omega)] at next
  omega

/-- What the circuit does with a DATA cell. -/
theorem sendmeCircuitConsiderSending_owed (rd : RunningDigest H) (consensus : SendmeConsensus)
    (owed : Owed inc e delivered) (count : sendmeGetIncCount e = inc)
    (version : getEmitMinVersion consensus = 1) (digest : Bytes 20) :
    ∃ e' cells, sendmeCircuitConsiderSending rd consensus (sendmeCircuitDataReceived e).1
        = (e', cells)
      ∧ e'.sendDigest = cells.foldl rd.add e.sendDigest ∧ e'.receiveDigest = e.receiveDigest
      ∧ e'.streams = e.streams ∧ Owed inc e' (delivered ++ [digest])
      ∧ circuitSendmes cells = dueSendme inc delivered e.sendmeDigest := by
  have count' : sendmeGetIncCount (sendmeCircuitDataReceived e).1 = inc := count
  have positive := sendmeGetIncCount_pos e
  rw [count, Int.natCast_pos] at positive
  have window : (sendmeCircuitDataReceived e).1.deliverWindow = e.deliverWindow - 1 := rfl
  rw [Owed] at owed
  by_cases whole : (delivered.length + 1) % inc = 0
  · have full := succ_mod_full positive whole
    refine ⟨_, _, sendmeCircuitConsiderSending_once rd consensus (by omega) (by omega), ?_⟩
    simp only [sendCircuitLevelSendme, version, if_true, dueSendme, if_pos whole]
    refine ⟨by simp [sendmeCircuitDataReceived], by simp [sendmeCircuitDataReceived],
      by simp [sendmeCircuitDataReceived], ?_, rfl⟩
    rw [Owed, List.length_append, List.length_singleton, whole]
    simp [count', window]
    omega
  · have next := succ_mod_of_ne whole
    have below := Nat.mod_lt (delivered.length + 1) positive
    refine ⟨_, _, sendmeCircuitConsiderSending_idle rd consensus (by omega), rfl, rfl, rfl, ?_, ?_⟩
    · rw [Owed, List.length_append, List.length_singleton, next, Nat.cast_add]
      omega
    · rw [dueSendme, if_neg whole]
      rfl

variable (rd) in
/-- A call at an end that has been delivered the cells with the digests `delivered`: the running
digests take in what is sent and what arrives, and SENDMEs answer the delivered cells that
complete an increment. -/
structure Handled (inc : Nat) (delivered : List (Bytes 20)) (e e' : HopEnd H)
    (arrived sent : List HopCell) : Prop where
  sendDigest : e'.sendDigest = sent.foldl rd.add e.sendDigest
  receiveDigest : e'.receiveDigest = arrived.foldl rd.add e.receiveDigest
  noStream : e'.streams 0 = none
  owed : Owed inc e' (delivered ++ dataDigests rd e.receiveDigest arrived)
  returned : (everyNth inc (delivered ++ dataDigests rd e.receiveDigest arrived)).map
      buildCellPayloadV1
    = (everyNth inc delivered).map buildCellPayloadV1 ++ circuitSendmes sent

theorem Quiet.handled (quiet : Quiet rd e e' sent) (closed : e.streams 0 = none)
    (owed : Owed inc e delivered) : Handled rd inc delivered e e' [] sent := by
  constructor
  · exact quiet.sendDigest
  · exact quiet.receiveDigest
  · exact quiet.noStream closed
  · rw [dataDigests, List.append_nil, Owed, quiet.deliverWindow]
    exact owed
  · rw [quiet.sendmes closed, dataDigests, List.append_nil, List.append_nil]

theorem Handled.then_quiet {arrived : List HopCell}
    (handled : Handled rd inc delivered e₁ e₂ arrived sent) (quiet : Quiet rd e₂ e₃ sent') :
    Handled rd inc delivered e₁ e₃ arrived (sent ++ sent') := by
  constructor
  · rw [quiet.sendDigest, handled.sendDigest, List.foldl_append]
  · exact quiet.receiveDigest.trans handled.receiveDigest
  · exact quiet.noStream handled.noStream
  · rw [Owed, quiet.deliverWindow]
    exact handled.owed
  · rw [circuitSendmes_append, quiet.sendmes handled.noStream, List.append_nil]
    exact handled.returned

theorem handled_other (rd : RunningDigest H) {cell : HopCell} (other : cell.command ≠ .data)
    (closed : e.streams 0 = none) (owed : Owed inc e delivered) (digest : Bytes 20) :
    Handled rd inc delivered e
      { e with receiveDigest := rd.add e.receiveDigest cell, sendmeDigest := digest } [cell] [] := by
  have none_ : dataDigests rd e.receiveDigest [cell] = [] :=
    dataDigests_eq_nil rd (by simpa using other) _
  constructor
  · rfl
  · rfl
  · exact closed
  · rw [none_, List.append_nil]
    exact owed
  · rw [none_, List.append_nil, circuitSendmes_nil, List.append_nil]

/-- A cell arrives. -/
theorem circuitReceiveRelayCell_handled {cell : HopCell} {reading : Reading}
    (closed : e.streams 0 = none) (count : sendmeGetIncCount e = inc)
    (version : getEmitMinVersion reading.consensus = 1) (owed : Owed inc e delivered)
    (result : circuitReceiveRelayCell rd reading cell e = .ok (e', sent)) :
    Handled rd inc delivered e e' [cell] sent := by
  obtain ⟨slot, marked, recorded⟩ : ∃ slot : Bytes 20,
      ((delivered.length + 1) % inc = 0 → slot = rd.get (rd.add e.receiveDigest cell))
      ∧ sendmeRecordReceivedCellDigest rd
          { e with receiveDigest := rd.add e.receiveDigest cell }
        = .ok { e with receiveDigest := rd.add e.receiveDigest cell, sendmeDigest := slot } := by
    have eq := sendmeRecordReceivedCellDigest_eq rd
      (e := { e with receiveDigest := rd.add e.receiveDigest cell }) owed count
    by_cases whole : (delivered.length + 1) % inc = 0
    · rw [if_pos whole] at eq
      exact ⟨_, fun _ => rfl, eq⟩
    · rw [if_neg whole] at eq
      exact ⟨_, fun eq => absurd eq whole, eq⟩
  simp only [circuitReceiveRelayCell, recorded] at result
  split at result
  · next data =>
    simp only [handleRelayData] at result
    split at result
    · cases result
    obtain ⟨e₁, cells, considered, sendDigest, receiveDigest, streams, owed₁, sendmes⟩ :=
      sendmeCircuitConsiderSending_owed rd reading.consensus
        (e := { e with receiveDigest := rd.add e.receiveDigest cell, sendmeDigest := slot })
        owed count version (rd.get (rd.add e.receiveDigest cell))
    rw [considered] at result
    obtain ⟨more, rfl, quiet, -⟩ := handleStreamData_quiet result
    have one : dataDigests rd e.receiveDigest [cell] = [rd.get (rd.add e.receiveDigest cell)] := by
      simp [dataDigests, data]
    have circuit : Handled rd inc delivered e e₁ [cell] cells := by
      constructor
      · exact sendDigest
      · exact receiveDigest
      · exact (congrFun streams 0).trans closed
      · rw [one]
        exact owed₁
      · rw [one, everyNth_dueSendme, sendmes, dueSendme, dueSendme]
        split
        · next whole => rw [marked whole]
        · rfl
    exact circuit.then_quiet quiet
  · next sendme =>
    obtain ⟨e₂, processed, last⟩ := except_map_eq_ok.mp result
    cases last
    have taken := handled_other rd (show cell.command ≠ .data by simp [sendme]) closed owed slot
    exact taken.then_quiet (processSendmeCell_quiet processed)
  · next other =>
    cases result
    exact handled_other rd (by simp [other]) closed owed slot

/-! ## The sending side -/

/-- By the sender's counter, `unacked` cells are packaged and not acknowledged. The increment is
not 1, and a fixed window starts at a multiple of its increment. -/
def Spent (inc : Nat) (start : Int) (e : HopEnd H) (unacked : Nat) : Prop :=
  match e.ccontrol with
  | some cc => cc.sendmeInc.toNat = inc ∧ inc ≠ 1 ∧ cc.inflight.toNat = unacked
  | none => inc = circwindowIncrement ∧ circwindowIncrement ∣ start
    ∧ e.packageWindow = start - unacked ∧ 0 ≤ e.packageWindow

variable {start : Int} {unacked : Nat}

section

variable (spent : Spent inc start e unacked)

include spent

theorem Spent.count : sendmeGetIncCount e = inc := by
  cases mode : e.ccontrol with
  | some cc | none =>
    simp only [Spent, mode] at spent
    simp only [sendmeGetIncCount, mode, spent.1]

theorem Spent.same (same : SameSender e e') : Spent inc start e' unacked := by
  rw [Spent, same.ccontrol, same.packageWindow]
  exact spent

/-- The sender marks the cell that completes an increment. -/
theorem circuitSentCellForSendme_eq (room : 0 < congestionControlGetPackageWindow e) :
    circuitSentCellForSendme e = decide ((unacked + 1) % inc = 0) := by
  cases mode : e.ccontrol with
  | some cc =>
    simp only [Spent, mode] at spent
    obtain ⟨rfl, several, rfl⟩ := spent
    have below := inflight_lt_of_window mode room
    have limit := cc.cwnd.toNat_lt
    have some_ : cc.sendmeInc.toNat ≠ 0 := fun zero =>
      cc.sendmeInc_ne_zero (UInt8.toNat_inj.mp zero)
    have rest : ((cc.inflight + 1) % cc.sendmeInc.toUInt64).toNat
        = (cc.inflight.toNat + 1) % cc.sendmeInc.toNat := by
      rw [UInt64.toNat_mod, uint64_toNat_add (by simp; omega)]
      rfl
    simp only [circuitSentCellForSendme, mode]
    split
    · next first =>
      have zero : cc.inflight.toNat = 0 := by
        rw [first]
        rfl
      rw [zero, Nat.mod_eq_of_lt (by omega)]
      rfl
    split
    · next skipped =>
      rw [ne_eq, ← UInt64.toNat_inj, rest] at skipped
      exact (decide_eq_false skipped).symm
    · next marked =>
      rw [ne_eq, not_not, ← UInt64.toNat_inj, rest] at marked
      exact (decide_eq_true marked).symm
  | none =>
    simp only [Spent, mode] at spent
    obtain ⟨hundred, ⟨parts, rfl⟩, window, nonneg⟩ := spent
    simp only [congestionControlGetPackageWindow, mode] at room
    have rest : (e.packageWindow - 1).tmod circwindowIncrement
        = (e.packageWindow - 1) % circwindowIncrement := Int.tmod_eq_emod_of_nonneg (by omega)
    have fixed : inc = 100 := Int.ofNat.inj hundred
    subst fixed
    simp only [circuitSentCellForSendme, mode]
    split
    · next full =>
      simp only [circwindowIncrement, circwindowStart] at *
      exact (decide_eq_false (by omega)).symm
    split
    · next skipped =>
      rw [rest] at skipped
      simp only [circwindowIncrement] at *
      exact (decide_eq_false (by omega)).symm
    · next marked =>
      rw [rest] at marked
      simp only [circwindowIncrement] at *
      exact (decide_eq_true (by omega)).symm

end

/-- The recorded digests are those that complete an increment of the packaged cells, less the
ones that SENDMEs have acknowledged. -/
structure Sender (inc : Nat) (start : Int) (e : HopEnd H) (packaged : List (Bytes 20))
    (accepted : Nat) : Prop where
  digests : e.sendmeLastDigests = (everyNth inc packaged).drop accepted
  acked : inc * accepted ≤ packaged.length
  spent : Spent inc start e (packaged.length - inc * accepted)

variable {packaged : List (Bytes 20)} {accepted : Nat}

section

variable (sender : Sender inc start e packaged accepted)

include sender

theorem Sender.same (same : SameSender e e') : Sender inc start e' packaged accepted :=
  ⟨same.digests.trans sender.digests, sender.acked, sender.spent.same same⟩

theorem Sender.positive : 0 < inc := by
  have positive := sendmeGetIncCount_pos e
  rwa [sender.spent.count, Int.natCast_pos] at positive

theorem Sender.accepted_le : accepted ≤ (everyNth inc packaged).length := by
  rw [length_everyNth, Nat.le_div_iff_mul_le sender.positive, Nat.mul_comm]
  exact sender.acked

end

/-- A DATA cell is packaged and noted on the circuit. -/
theorem sender_packaged (rd : RunningDigest H) (sender : Sender inc start e packaged accepted)
    (room : 0 < congestionControlGetPackageWindow e) {cell : HopCell} (data : cell.command = .data)
    (nowUsec : UInt64) :
    Sender inc start (sendmeNoteCircuitDataPackaged nowUsec (relaySendCommandFromEdge rd cell e)).1
      (packaged ++ [rd.get (rd.add e.sendDigest cell)]) accepted := by
  have acked := sender.acked
  have marked := circuitSentCellForSendme_eq sender.spent room
  have whole : (packaged.length - inc * accepted + 1) % inc = (packaged.length + 1) % inc := by
    have parts : packaged.length + 1
        = packaged.length - inc * accepted + 1 + inc * accepted := by omega
    rw [parts, Nat.add_mul_mod_self_left]
  rw [whole] at marked
  have digests : (relaySendCommandFromEdge rd cell e).sendmeLastDigests
      = (everyNth inc (packaged ++ [rd.get (rd.add e.sendDigest cell)])).drop accepted := by
    rw [relaySendCommandFromEdge_eq, everyNth_snoc, marked]
    simp only [data, true_and, decide_eq_true_eq]
    split
    · rw [List.drop_append_of_le_length sender.accepted_le, sender.digests]
    · exact sender.digests
  have length : (packaged ++ [rd.get (rd.add e.sendDigest cell)]).length - inc * accepted
      = packaged.length - inc * accepted + 1 := by
    rw [List.length_append, List.length_singleton]
    omega
  have spent := sender.spent
  constructor
  · rw [← digests, sendmeNoteCircuitDataPackaged]
    split <;> rfl
  · rw [List.length_append]
    omega
  · rw [length]
    cases mode : e.ccontrol with
    | some cc =>
      have below := inflight_lt_of_window mode room
      have limit := cc.cwnd.toNat_lt
      have grown : (cc.inflight + 1).toNat = cc.inflight.toNat + 1 :=
        uint64_toNat_add (by simp; omega)
      simp only [Spent, mode] at spent
      simp only [Spent, sendmeNoteCircuitDataPackaged, relaySendCommandFromEdge_ccontrol, mode,
        congestionControlNoteCellSent]
      split
      · exact ⟨spent.1, spent.2.1, by rw [← spent.2.2, ← grown]⟩
      · exact ⟨spent.1, spent.2.1, by rw [← spent.2.2, ← grown]⟩
    | none =>
      simp only [congestionControlGetPackageWindow, mode] at room
      simp only [Spent, mode] at spent
      simp only [Spent, sendmeNoteCircuitDataPackaged, relaySendCommandFromEdge_ccontrol, mode,
        relaySendCommandFromEdge_packageWindow]
      exact ⟨spent.1, spent.2.1, by omega, by omega⟩

section

variable (sender : Sender inc start e packaged accepted)

include sender

theorem connectionEdgePackageRawInbuf_sender {xoffReceived : Bool} {inbuf : List InbufCell}
    {maxCells : Option Int}
    (result : connectionEdgePackageRawInbuf rd streamId xoffReceived inbuf maxCells e
      = .ok (e', sent)) :
    Sender inc start e' (packaged ++ dataDigests rd e.sendDigest sent) accepted := by
  induction inbuf generalizing e packaged maxCells sent with
  | nil =>
    cases result
    rwa [dataDigests, List.append_nil]
  | cons next inbuf ih =>
    have idle : Sender inc start e (packaged ++ dataDigests rd e.sendDigest []) accepted := by
      rwa [dataDigests, List.append_nil]
    rw [connectionEdgePackageRawInbuf] at result
    split at result
    · cases result
      exact idle
    split at result
    · cases result
      exact idle
    next room =>
    split at result
    · cases result
      exact idle
    next conn found =>
    split at result
    · cases result
      exact idle
    simp only at result
    have quiet : Quiet rd e _ [_] := packageCell_quiet found xoffReceived next
    have noted := sender_packaged rd sender (by omega)
      (show (⟨.data, streamId, next.payload⟩ : HopCell).command = .data from rfl) next.nowUsec
    replace noted := noted.same (sendmeNoteStreamDataPackaged_sender streamId conn xoffReceived _)
    have one (cells : List HopCell) (state : H) :
        dataDigests rd state (⟨.data, streamId, next.payload⟩ :: cells)
          = rd.get (rd.add state ⟨.data, streamId, next.payload⟩)
            :: dataDigests rd (rd.add state ⟨.data, streamId, next.payload⟩) cells := by
      simp [dataDigests]
    split at result
    · cases result
    split at result
    · cases result
      rw [one]
      exact noted
    · obtain ⟨rest, more, last⟩ := except_map_eq_ok.mp result
      cases last
      have after := ih noted more
      rw [quiet.sendDigest, List.append_assoc] at after
      rw [one]
      exact after

/-- A SENDME of the circuit is accepted, and acknowledges one increment. -/
theorem sendmeProcessCircuitLevel_sender {consensus : SendmeConsensus} {env : CcEnv}
    {payload : List UInt8} (result : sendmeProcessCircuitLevel consensus env payload e = .ok e') :
    Sender inc start e' packaged (accepted + 1) := by
  rw [sendmeProcessCircuitLevel] at result
  split at result
  · cases result
  next digests valid =>
  obtain ⟨digest, recorded⟩ := sendmeIsValid_pops valid
  have left := sender.digests
  rw [recorded] at left
  have more : accepted < (everyNth inc packaged).length := by
    by_contra none_
    rw [List.drop_eq_nil_of_le (by omega)] at left
    cases left
  have acked : inc * (accepted + 1) ≤ packaged.length := by
    rw [length_everyNth, Nat.lt_iff_add_one_le, Nat.le_div_iff_mul_le sender.positive] at more
    rwa [Nat.mul_comm]
  have digests' : digests = (everyNth inc packaged).drop (accepted + 1) := by
    rw [← List.drop_drop, ← left]
    rfl
  have length : packaged.length - inc * accepted = packaged.length - inc * (accepted + 1) + inc := by
    rw [Nat.mul_add, Nat.mul_one] at *
    omega
  have spent := sender.spent
  cases mode : e.ccontrol with
  | some cc =>
    simp only [mode] at result
    obtain ⟨cc', dispatched, last⟩ := except_map_eq_ok.mp result
    cases last
    simp only [Spent, mode] at spent
    obtain accounted | failed := congestionControlDispatchCcAlg_accounted env cc
    · rw [dispatched] at accounted
      have inflight := accounted.inflight
      rw [← UInt64.toNat_inj, uint64_toNat_sub (by simp; omega)] at inflight
      refine ⟨digests', acked, ?_⟩
      refine ⟨by rw [accounted.sendmeInc, spent.1], spent.2.1, ?_⟩
      rw [inflight]
      simp
      omega
    · rw [dispatched] at failed
      cases failed
  | none =>
    simp only [mode, sendmeProcessCircuitLevelImpl] at result
    split at result
    · cases result
    · cases result
      simp only [Spent, mode] at spent
      refine ⟨digests', acked, ?_⟩
      simp only [Spent]
      refine ⟨spent.1, spent.2.1, by omega, ?_⟩
      rw [← spent.1]
      omega

theorem Sender.quiet (same : SameSender e e') (others : ∀ c ∈ sent, c.command ≠ .data) (state : H) :
    Sender inc start e' (packaged ++ dataDigests rd state sent) accepted := by
  rw [dataDigests_eq_nil rd others, List.append_nil]
  exact sender.same same

theorem circuitReceiveRelayCell_keeps {cell : HopCell} {reading : Reading}
    (result : circuitReceiveRelayCell rd reading cell e = .ok (e', sent)) :
    Sender inc start e' (packaged ++ dataDigests rd e.sendDigest sent)
      (accepted + (circuitSendmes [cell]).length) := by
  simp only [circuitReceiveRelayCell] at result
  split at result
  · cases result
  next e₁ recorded =>
  have absorbed : SameSender e { e with receiveDigest := rd.add e.receiveDigest cell } :=
    ⟨rfl, rfl, rfl⟩
  have recognized := absorbed.trans (sendmeRecordReceivedCellDigest_sender rd recorded)
  split at result
  · next data =>
    have none_ : circuitSendmes [cell] = [] := circuitSendmes_eq_nil (by simp [data])
    rw [none_]
    apply sender.quiet (recognized.trans (handleRelayData_sender rd result))
    intro c member
    rw [handleRelayData_cells rd result c member]
    simp
  · next sendme =>
    obtain ⟨e₂, processed, last⟩ := except_map_eq_ok.mp result
    cases last
    rw [dataDigests, List.append_nil]
    by_cases circuit : cell.streamId = 0
    · have one : circuitSendmes [cell] = [cell.payload] := by
        simp [circuitSendmes, sendme, circuit]
      rw [processSendmeCell, if_pos circuit] at processed
      rw [one]
      exact sendmeProcessCircuitLevel_sender (sender.same recognized) processed
    · have none_ : circuitSendmes [cell] = [] := circuitSendmes_eq_nil (by simp [circuit])
      rw [none_]
      exact sender.same (recognized.trans (processSendmeCell_stream circuit processed))
  · next other =>
    cases result
    have none_ : circuitSendmes [cell] = [] := circuitSendmes_eq_nil (by simp [other])
    rw [none_]
    exact sender.quiet recognized (by simp) _

end

/-! ## One call -/

/-- The cells a call takes. -/
def arrivedBy : HopEvent → List HopCell
  | .receive cell _ => [cell]
  | _ => []

/-- SENDMEs are sent in version 1. -/
def emitsVersion1 : HopEvent → Prop
  | .receive _ reading => getEmitMinVersion reading.consensus = 1
  | _ => True

section

variable {ev : HopEvent}

theorem hopStep_handled (closed : e.streams 0 = none) (count : sendmeGetIncCount e = inc)
    (owed : Owed inc e delivered) (version : emitsVersion1 ev)
    (result : hopStep rd e ev = .ok (e', sent)) :
    Handled rd inc delivered e e' (arrivedBy ev) sent := by
  cases ev with
  | package streamId xoffReceived inbuf maxCells =>
    exact (connectionEdgePackageRawInbuf_quiet result).handled closed owed
  | receive cell reading => exact circuitReceiveRelayCell_handled closed count version owed result
  | flushed streamId outbufTooFull =>
    have quiet := sendmeConnectionEdgeConsiderSending_quiet rd streamId outbufTooFull e
    rw [Except.ok.inj result] at quiet
    exact quiet.handled closed owed
  | send streamId payload =>
    cases result
    have quiet := quiet_relaySendCommandFromEdge rd ⟨.other, streamId, payload⟩ e (by simp)
    exact quiet.handled closed owed

theorem hopStep_sender (sender : Sender inc start e packaged accepted)
    (result : hopStep rd e ev = .ok (e', sent)) :
    Sender inc start e' (packaged ++ dataDigests rd e.sendDigest sent)
      (accepted + (circuitSendmes (arrivedBy ev)).length) := by
  cases ev with
  | package streamId xoffReceived inbuf maxCells =>
    exact connectionEdgePackageRawInbuf_sender sender result
  | receive cell reading => exact circuitReceiveRelayCell_keeps sender result
  | flushed streamId outbufTooFull =>
    have cells := sendmeConnectionEdgeConsiderSending_cells rd streamId outbufTooFull e
    have same := sendmeConnectionEdgeConsiderSending_sender rd streamId outbufTooFull e
    rw [Except.ok.inj result] at cells same
    apply sender.quiet same
    intro c member
    rw [cells c member]
    simp
  | send streamId payload =>
    cases result
    apply sender.quiet _ (by simp)
    apply relaySendCommandFromEdge_sender
    simp

end

/-! ## Both ends -/

variable {w w' : Exchange H} {side : Side}

/-- The ends send SENDMEs in version 1. -/
def sendsVersion1 : ExchangeEvent → Bool
  | .deliver _ reading => getEmitMinVersion reading.consensus = 1
  | _ => true

/-- A call at one side, or nothing at all. -/
theorem exchangeStep_cases {ev : ExchangeEvent} (taken : ExchangeStep rd w ev w') :
    w' = w ∨ ∃ side hopEvent e' sent cells, hopStep rd (w.ends side) hopEvent = .ok (e', sent)
      ∧ w.flight side.other = arrivedBy hopEvent ++ cells
      ∧ w' = (w.arrive side cells).sent rd side (e', sent)
      ∧ (sendsVersion1 ev = true → emitsVersion1 hopEvent) := by
  have idle (side : Side) : w.arrive side (w.flight side.other) = w := by
    rw [Exchange.arrive, Function.update_eq_self]
  cases ev with
  | package side streamId xoffReceived inbuf maxCells
  | flushed side streamId outbufTooFull
  | send side streamId payload =>
    rw [ExchangeStep, exchangeStep] at taken
    obtain ⟨result, step, rfl⟩ := except_map_eq_ok.mp taken
    exact .inr ⟨side, _, result.1, result.2, w.flight side.other, step, rfl, by rw [idle],
      fun _ => trivial⟩
  | deliver side reading =>
    rw [ExchangeStep, exchangeStep] at taken
    split at taken
    · cases taken
      exact .inl rfl
    · next cell cells flight =>
      obtain ⟨result, step, rfl⟩ := except_map_eq_ok.mp taken
      exact .inr ⟨side, _, result.1, result.2, cells, step, flight, rfl, of_decide_eq_true⟩

variable (rd) in
/-- The cells from `side` to the other end, and the SENDMEs for them: `delivered` are the digests
of the DATA cells that have arrived, and `accepted` SENDMEs have come back. -/
structure Direction (inc : Nat) (start : Int) (w : Exchange H) (side : Side)
    (delivered : List (Bytes 20)) (accepted : Nat) : Prop where
  sender : Sender inc start (w.ends side) (w.packaged side) accepted
  synchronized : (w.flight side).foldl rd.add (w.ends side.other).receiveDigest
    = (w.ends side).sendDigest
  transit : w.packaged side
    = delivered ++ dataDigests rd (w.ends side.other).receiveDigest (w.flight side)
  owed : Owed inc (w.ends side.other) delivered
  returned : w.sendmes side.other = (everyNth inc delivered).map buildCellPayloadV1
  returning : circuitSendmes (w.flight side.other) = (w.sendmes side.other).drop accepted
  accepted_le : accepted ≤ (w.sendmes side.other).length

variable {arrived cells : List HopCell}

/-- The sender of the direction makes a call. -/
theorem Direction.sends (direction : Direction rd inc start w side delivered accepted)
    (flight : w.flight side.other = arrived ++ cells)
    (sendDigest : e'.sendDigest = sent.foldl rd.add (w.ends side).sendDigest)
    (sender : Sender inc start e'
      (w.packaged side ++ dataDigests rd (w.ends side).sendDigest sent)
      (accepted + (circuitSendmes arrived).length)) :
    Direction rd inc start ((w.arrive side cells).sent rd side (e', sent)) side delivered
      (accepted + (circuitSendmes arrived).length) := by
  have different := side.other_ne
  have returning := direction.returning
  rw [flight, circuitSendmes_append] at returning
  constructor
  · simpa [Exchange.sent, Exchange.arrive] using sender
  · simp [Exchange.sent, Exchange.arrive, different, different.symm, direction.synchronized,
      sendDigest]
  · simp [Exchange.sent, Exchange.arrive, different, different.symm, direction.transit,
      dataDigests_append, direction.synchronized]
  · simpa [Exchange.sent, Exchange.arrive, different] using direction.owed
  · simpa [Exchange.sent, Exchange.arrive, different] using direction.returned
  · simp only [Exchange.sent, Exchange.arrive, Function.update_self,
      Function.update_of_ne different]
    rw [← List.drop_drop, ← returning, List.drop_left]
  · have length := congrArg List.length returning
    rw [List.length_append, List.length_drop] at length
    have start := direction.accepted_le
    simp only [Exchange.sent, Exchange.arrive, Function.update_of_ne different]
    omega

/-- The receiver of the direction makes a call. -/
theorem Direction.receives (direction : Direction rd inc start w side.other delivered accepted)
    (flight : w.flight side.other = arrived ++ cells)
    (handled : Handled rd inc delivered (w.ends side) e' arrived sent) :
    Direction rd inc start ((w.arrive side cells).sent rd side (e', sent)) side.other
      (delivered ++ dataDigests rd (w.ends side).receiveDigest arrived) accepted := by
  have different := side.other_ne
  have synchronized := direction.synchronized
  have transit := direction.transit
  rw [flight, Side.other_other] at synchronized transit
  have returned := direction.returned
  have returning := direction.returning
  have accepted_le := direction.accepted_le
  rw [Side.other_other] at returned returning accepted_le
  constructor
  · simpa [Exchange.sent, Exchange.arrive, different] using direction.sender
  · simpa [Exchange.sent, Exchange.arrive, different, handled.receiveDigest] using synchronized
  · simp [Exchange.sent, Exchange.arrive, different, handled.receiveDigest, transit,
      dataDigests_append]
  · simpa [Exchange.sent, Exchange.arrive] using handled.owed
  · rw [handled.returned, ← returned]
    simp [Exchange.sent, Exchange.arrive]
  · simp only [Exchange.sent, Exchange.arrive, Side.other_other, Function.update_self,
      Function.update_of_ne different.symm, circuitSendmes_append, returning]
    rw [List.drop_append_of_le_length accepted_le]
  · simp [Exchange.sent, Exchange.arrive]
    omega

variable (rd) in
/-- Both directions agree on the marked cells. -/
structure Agreed (inc : Nat) (start : Side → Int) (w : Exchange H) : Prop where
  noStream : ∀ side, (w.ends side).streams 0 = none
  directions : ∀ side, ∃ delivered accepted,
    Direction rd inc (start side) w side delivered accepted

variable {start : Side → Int}

theorem exchangeStep_agreed {ev : ExchangeEvent} (agreed : Agreed rd inc start w)
    (taken : ExchangeStep rd w ev w') (version : sendsVersion1 ev = true) : Agreed rd inc start w' := by
  obtain rfl | ⟨side, hopEvent, e', sent, cells, step, flight, rfl, versions⟩ :=
    exchangeStep_cases taken
  · exact agreed
  obtain ⟨delivered, accepted, here⟩ := agreed.directions side
  obtain ⟨delivered', accepted', there⟩ := agreed.directions side.other
  have owed := there.owed
  rw [Side.other_other] at owed
  have handled := hopStep_handled (agreed.noStream side) here.sender.spent.count owed
    (versions version) step
  constructor
  · intro other
    by_cases same : other = side
    · subst same
      simpa [Exchange.sent, Exchange.arrive] using handled.noStream
    · simpa [Exchange.sent, Exchange.arrive, Function.update_of_ne same]
        using agreed.noStream other
  · intro direction
    by_cases same : direction = side
    · subst same
      exact ⟨_, _, here.sends flight handled.sendDigest (hopStep_sender here.sender step)⟩
    · have opposite : direction = side.other := by
        cases direction <;> cases side <;> simp_all [Side.other]
      subst opposite
      exact ⟨_, _, there.receives flight handled⟩

/-! ## Runs -/

/-- The increment of a hop: the one negotiated, or that of the fixed window. -/
def increment : Option { inc : UInt8 // inc ≠ 0 } → Nat
  | some inc => inc.val.toNat
  | none => circwindowIncrement.toNat

/-- The two ends mark the same cells: the negotiated increment is not 1, or the fixed windows
start at multiples of their increment. -/
def MarksAgree (circwindow : Side → Option Int) : Option { inc : UInt8 // inc ≠ 0 } → Prop
  | some inc => inc.val ≠ 1
  | none => ∀ side, circwindowIncrement ∣ circuitInitialPackageWindow (circwindow side)

/-- The congestion control objects of the two ends. -/
def negotiatedControl (params : Side → CcInitParams) (mode : Option { inc : UInt8 // inc ≠ 0 })
    (side : Side) : Option CongestionControl :=
  mode.map fun inc => congestionControlNew (params side) inc.val inc.property

theorem FreshExchange.agreed (rd : RunningDigest H) {circwindow : Side → Option Int} {params : Side → CcInitParams}
    {mode : Option { inc : UInt8 // inc ≠ 0 }} {openStreams : UInt16 → Bool}
    (fresh : FreshExchange w circwindow (negotiatedControl params mode) openStreams)
    (marks : MarksAgree circwindow mode) :
    Agreed rd (increment mode) (fun side => circuitInitialPackageWindow (circwindow side)) w := by
  constructor
  · intro side
    obtain ⟨digest, send, receive, ends⟩ := fresh.ends side
    simp [ends, newHopEnd, fresh.noStream]
  · intro side
    refine ⟨[], 0, ?_, ?_, ?_, ?_, ?_, ?_, ?_⟩
    · obtain ⟨digest, send, receive, ends⟩ := fresh.ends side
      refine ⟨by simp [ends, newHopEnd, fresh.packaged], by simp, ?_⟩
      simp only [ends, newHopEnd, fresh.packaged, Spent, negotiatedControl]
      cases mode with
      | some inc =>
        refine ⟨rfl, fun one => marks (UInt8.toNat_inj.mp one), ?_⟩
        simp [congestionControlNew]
      | none =>
        have low := (circuitInitialPackageWindow_range (circwindow side)).1
        refine ⟨rfl, marks side, by simp, ?_⟩
        exact le_trans (by decide) low
    · simp [fresh.flight, fresh.synchronized]
    · simp [fresh.flight, fresh.packaged, dataDigests]
    · obtain ⟨digest, send, receive, ends⟩ := fresh.ends side.other
      simp [Owed, ends, newHopEnd]
    · simp [fresh.sendmes]
    · simp [fresh.flight, fresh.sendmes]
    · simp

/-- The k-th SENDME carries the digest of the last cell of the k-th increment, and each SENDME
that is next to arrive finds that digest recorded and is valid. -/
structure SendmesAccepted (inc : Nat) (w : Exchange H) : Prop where
  carried : ∀ (side : Side) k payload, (w.sendmes side)[k]? = some payload →
    ∃ digest, (w.packaged side.other)[(k + 1) * inc - 1]? = some digest
      ∧ payload = buildCellPayloadV1 digest
  valid : ∀ (side : Side) cell cells, w.flight side.other = cell :: cells →
    cell.command = .sendme → cell.streamId = 0 → ∃ digest rest,
      (w.ends side).sendmeLastDigests = digest :: rest ∧ cell.payload = buildCellPayloadV1 digest
        ∧ ∀ consensus, getAcceptMinVersion consensus ≤ sendmeMaxSupportedVersion →
          sendmeIsValid consensus (w.ends side).sendmeLastDigests cell.payload = (true, rest)

theorem sendmeCellParse_build (digest : Bytes 20) :
    sendmeCellParse (buildCellPayloadV1 digest) = some (.v1 digest) := by
  have version : takeBytes 1 (buildCellPayloadV1 digest)
      = some (⟨[1], rfl⟩, be16 20 ++ digest.val) :=
    takeBytes_of_length 1 [1] (be16 20 ++ digest.val) rfl
  have dataLen : takeBytes 2 (be16 20 ++ digest.val) = some (⟨be16 20, rfl⟩, digest.val) :=
    takeBytes_of_length 2 (be16 20) digest.val rfl
  have length : digest.val.length = (getUint16 (be16 20)).toNat := by
    rw [getUint16_be16]
    exact digest.property
  have data := takeBytes_of_length _ digest.val [] length
  rw [List.append_nil] at data
  have digits : digest.val.length = 20 := digest.property
  rw [sendmeCellParse]
  simp [version, dataLen, data, digits]

/-- The recorded digest is the one the next SENDME carries. -/
theorem Direction.next_digest (direction : Direction rd inc (start side) w side delivered accepted)
    {payload : List UInt8} {payloads : List (List UInt8)}
    (next : circuitSendmes (w.flight side.other) = payload :: payloads) :
    ∃ digest rest, (w.ends side).sendmeLastDigests = digest :: rest
      ∧ payload = buildCellPayloadV1 digest := by
  have accepted_le := direction.accepted_le
  have returning := direction.returning
  rw [next, direction.returned, ← List.map_drop] at returning
  rw [direction.returned, List.length_map] at accepted_le
  obtain ⟨digest, rest, chosen, carried, -⟩ := List.map_eq_cons_iff.mp returning.symm
  obtain ⟨more, later⟩ := everyNth_append_prefix (n := inc) delivered
    (dataDigests rd (w.ends side.other).receiveDigest (w.flight side))
  refine ⟨digest, rest ++ more, ?_, carried.symm⟩
  rw [direction.sender.digests, direction.transit, ← later,
    List.drop_append_of_le_length accepted_le, chosen, List.cons_append]

theorem sendmeIsValid_build {consensus : SendmeConsensus}
    (handled : getAcceptMinVersion consensus ≤ sendmeMaxSupportedVersion) (digest : Bytes 20)
    (rest : List (Bytes 20)) :
    sendmeIsValid consensus (digest :: rest) (buildCellPayloadV1 digest) = (true, rest) := by
  have version : cellVersionCanBeHandled consensus (SendmeCell.v1 digest).version = true := by
    have one : (SendmeCell.v1 digest).version = 1 := rfl
    have supported : sendmeMaxSupportedVersion = 1 := rfl
    rw [cellVersionCanBeHandled, one, if_neg (by omega), if_neg (by omega), if_neg (by omega)]
  have filled : buildCellPayloadV1 digest ≠ [] := by simp [buildCellPayloadV1]
  rw [sendmeIsValid, if_neg filled, sendmeCellParse_build]
  simp [version]

theorem Agreed.all_valid (agreed : Agreed rd inc start w) : SendmesAccepted inc w := by
  constructor
  · intro side k payload sent
    obtain ⟨delivered, accepted, direction⟩ := agreed.directions side.other
    have returned := direction.returned
    rw [Side.other_other] at returned
    rw [returned, List.getElem?_map] at sent
    obtain ⟨digest, chosen, carried⟩ := Option.map_eq_some_iff.mp sent
    refine ⟨digest, ?_, carried.symm⟩
    rw [getElem?_everyNth direction.sender.positive] at chosen
    have bound := (List.getElem?_eq_some_iff.mp chosen).1
    rw [direction.transit, List.getElem?_append_left bound]
    exact chosen
  · intro side cell cells flight sendme circuit
    obtain ⟨delivered, accepted, direction⟩ := agreed.directions side
    have next : circuitSendmes (w.flight side.other) = cell.payload :: circuitSendmes cells := by
      simp [circuitSendmes, flight, sendme, circuit]
    obtain ⟨digest, rest, recorded, carried⟩ := direction.next_digest next
    refine ⟨digest, rest, recorded, carried, fun consensus handled => ?_⟩
    rw [recorded, carried]
    exact sendmeIsValid_build handled digest rest

/-- After every run of two honest ends that mark the same cells and send version 1, each SENDME
carries the digest it should and is accepted. -/
theorem sendmes_accepted (rd : RunningDigest H) {circwindow : Side → Option Int}
    {params : Side → CcInitParams} {mode : Option { inc : UInt8 // inc ≠ 0 }}
    {openStreams : UInt16 → Bool} {w₀ w : Exchange H}
    (fresh : FreshExchange w₀ circwindow (negotiatedControl params mode) openStreams)
    (marks : MarksAgree circwindow mode) {ts : List (Transition (Exchange H) ExchangeEvent)}
    (run : Run (ExchangeStep rd) w₀ ts w) (version : ∀ x ∈ ts, sendsVersion1 x.input = true) :
    SendmesAccepted (increment mode) w := by
  have agreed := run.invariant_of_steps version
    (FreshExchange.agreed rd fresh marks)
    (fun _ _ _ agreed taken sends => exchangeStep_agreed agreed taken sends)
  exact agreed.all_valid

/-- With an increment of 4, five cells are packaged and four arrive. -/
theorem sendmes_accepted_four :
    ∃ w ts, Run (ExchangeStep countingDigest) (newExchange (fun _ => none)
        (negotiatedControl (fun _ => vegasParams) (some ⟨4, by decide⟩)) 0 (· == 7)) ts w
      ∧ (w.sendmes .relay).length = 1 ∧ (w.packaged .client).length = 5
      ∧ SendmesAccepted 4 w := by
  have ends : (runExchange countingDigest sendsVersion1 (newExchange (fun _ => none)
        (negotiatedControl (fun _ => vegasParams) (some ⟨4, by decide⟩)) 0 (· == 7))
      (.package .client 7 false (List.replicate 5 ⟨[], 1000⟩) none
        :: List.replicate 4 (.deliver .relay steadyReading))).any fun w =>
      decide ((w.sendmes .relay).length = 1 ∧ (w.packaged .client).length = 5) := by
    decide +kernel
  obtain ⟨w, result, counts⟩ := (Option.any_eq_true _ _).mp ends
  obtain ⟨sendmes, packaged⟩ := of_decide_eq_true counts
  obtain ⟨ts, run, version⟩ := run_of_runExchange countingDigest result
  exact ⟨w, ts, run, sendmes, packaged, sendmes_accepted countingDigest
    (newExchange_fresh (fun _ => none)
      (negotiatedControl (fun _ => vegasParams) (some ⟨4, by decide⟩)) 0 rfl)
    (by simp [MarksAgree]) run version⟩

/-- With an increment of 1, the first cell is not recorded, and its SENDME finds no digest. -/
theorem sendme_of_one_refused :
    ¬∀ (w : Exchange Nat) (ts : List (Transition (Exchange Nat) ExchangeEvent)),
      Run (ExchangeStep countingDigest) (newExchange (fun _ => none)
        (negotiatedControl (fun _ => vegasParams) (some ⟨1, by decide⟩)) 0 (· == 7)) ts w →
      (∀ x ∈ ts, sendsVersion1 x.input = true) → SendmesAccepted 1 w := by
  intro always
  have ends : (runExchange countingDigest sendsVersion1 (newExchange (fun _ => none)
        (negotiatedControl (fun _ => vegasParams) (some ⟨1, by decide⟩)) 0 (· == 7))
      [.package .client 7 false [⟨[], 1000⟩] none, .deliver .relay steadyReading]).any fun w =>
      decide ((w.ends .client).sendmeLastDigests = [] ∧ (w.flight .relay).head?.any fun cell =>
        cell.command = .sendme ∧ cell.streamId = 0) := by
    decide +kernel
  obtain ⟨w, result, facts⟩ := (Option.any_eq_true _ _).mp ends
  obtain ⟨none_, sendme⟩ := of_decide_eq_true facts
  obtain ⟨ts, run, version⟩ := run_of_runExchange countingDigest result
  obtain ⟨cell, head, circuit⟩ := (Option.any_eq_true _ _).mp sendme
  obtain ⟨command, streamId⟩ := of_decide_eq_true circuit
  obtain ⟨cells, flight⟩ := List.head?_eq_some_iff.mp head
  obtain ⟨digest, rest, recorded, -⟩ :=
    (always w ts run version).valid .client cell cells flight command streamId
  rw [none_] at recorded
  cases recorded

end RendezMix.Guarantees.SendmeDigests
