import RendezMix.Guarantees.SendmeCalls
import RendezMix.Source.SendmeSystem

/-!
# Congestion accounting under forged SENDMEs

The number of cells in flight, the timestamps waiting for a SENDME and the
digests recorded on the circuit are three accounts of the same cells. The
algorithms change none of them but for one acknowledged increment, and the list
of digests is the only gate in front of them.
-/
namespace RendezMix.Guarantees.CongestionAccounting
open Library.ByteStrings Library.Runs Library.Words Source SendmeCalls HopEvent

/-! ## What an algorithm does to the accounts -/

/-- Only estimates and windows differ. -/
structure SameAccounts (cc cc' : CongestionControl) : Prop where
  inflight : cc'.inflight = cc.inflight
  sendmeInc : cc'.sendmeInc = cc.sendmeInc
  pending : cc'.sendmePendingTimestamps = cc.sendmePendingTimestamps

theorem SameAccounts.refl (cc : CongestionControl) : SameAccounts cc cc := ⟨rfl, rfl, rfl⟩

/-- One increment is acknowledged, and its timestamp is used up. -/
structure Acked (cc cc' : CongestionControl) : Prop where
  inflight : cc'.inflight = cc.inflight - cc.sendmeInc.toUInt64
  sendmeInc : cc'.sendmeInc = cc.sendmeInc
  pending : ∃ sentAt, cc.sendmePendingTimestamps = sentAt :: cc'.sendmePendingTimestamps

theorem Acked.then_same {cc₁ cc₂ cc₃ : CongestionControl} (acked : Acked cc₁ cc₂)
    (same : SameAccounts cc₂ cc₃) : Acked cc₁ cc₃ := by
  obtain ⟨sentAt, pending⟩ := acked.pending
  exact ⟨same.inflight.trans acked.inflight, same.sendmeInc.trans acked.sendmeInc,
    sentAt, by rw [pending, same.pending]⟩

theorem acked_ackInflight {cc cc₁ cc₂ : CongestionControl} {sentAt : UInt64}
    (pending : cc.sendmePendingTimestamps = sentAt :: cc₁.sendmePendingTimestamps)
    (inflight : cc₁.inflight = cc.inflight) (sendmeInc : cc₁.sendmeInc = cc.sendmeInc)
    (same : SameAccounts cc₁ cc₂) : Acked cc (ackInflight cc₂) := by
  constructor
  · simp only [ackInflight]
    rw [same.inflight, same.sendmeInc, inflight, sendmeInc]
  · exact same.sendmeInc.trans sendmeInc
  · exact ⟨sentAt, by rw [pending]; exact congrArg _ same.pending.symm⟩

section

variable (env : CcEnv) (p : WestwoodParams)

theorem westwoodMoveCwnd_same (cc : CongestionControl) :
    SameAccounts cc (westwoodMoveCwnd p cc) := by
  rw [westwoodMoveCwnd]
  split
  · split <;> exact ⟨rfl, rfl, rfl⟩
  · exact ⟨rfl, rfl, rfl⟩

theorem westwoodUpdateCwnd_same (cc : CongestionControl) :
    SameAccounts cc (westwoodUpdateCwnd p cc) := by
  have moved := westwoodMoveCwnd_same p cc
  exact ⟨moved.inflight, moved.sendmeInc, moved.pending⟩

theorem vegasSlowStartCwnd_same (p : VegasParams) (queueUse : UInt64) (cc : CongestionControl) :
    SameAccounts cc (vegasSlowStartCwnd p queueUse cc) := by
  rw [vegasSlowStartCwnd]
  split
  · simp only
    split <;> exact ⟨rfl, rfl, rfl⟩
  · exact ⟨rfl, rfl, rfl⟩

theorem vegasSlowStart_same (p : VegasParams) (queueUse : UInt64) (cc : CongestionControl) :
    SameAccounts cc (vegasSlowStart p queueUse cc) := by
  have moved := vegasSlowStartCwnd_same p queueUse cc
  simp only [vegasSlowStart]
  split
  · exact ⟨moved.inflight, moved.sendmeInc, moved.pending⟩
  · exact moved

section

variable (currRttUsec : UInt64) (broken : Bool)

theorem clampCwnd_same (cc : CongestionControl) : SameAccounts cc (clampCwnd env cc) := by
  rw [clampCwnd]
  split <;> exact ⟨rfl, rfl, rfl⟩

/-! ## The lists of timestamps -/

theorem two_le_nEwmaCount (cc : CongestionControl) : 2 ≤ nEwmaCount env cc := by
  simp only [nEwmaCount]
  rw [UInt64.le_iff_toNat_le, uint64_toNat_max]
  exact Nat.le_max_right _ _

theorem trimArrivals_ok (bweSendmeMin : UInt8) {ewmaCnt : UInt64} (count : 2 ≤ ewmaCnt)
    (timestamps : List UInt64) :
    ∃ rest, trimArrivals bweSendmeMin ewmaCnt timestamps = .ok rest
      ∧ (timestamps ≠ [] → rest ≠ []) := by
  induction timestamps with
  | nil => exact ⟨[], by simp [trimArrivals], fun full => full⟩
  | cons timestamp rest ih =>
    rw [trimArrivals]
    split
    · next trim =>
      have longer : rest ≠ [] := by
        rintro rfl
        have small : ¬(UInt64.ofNat 1 > ewmaCnt) := by
          rw [gt_iff_lt, UInt64.not_lt]
          exact UInt64.le_trans (by decide) count
        exact small trim.2
      obtain ⟨trimmed, result, full⟩ := ih
      exact ⟨trimmed, result, fun _ => full longer⟩
    · exact ⟨timestamp :: rest, rfl, fun _ => by simp⟩

theorem updateSendmeRate_ok (cc : CongestionControl) (full : cc.sendmeArrivalTimestamps ≠ []) :
    ∃ cc', updateSendmeRate env cc = .ok cc' ∧ SameAccounts cc cc' := by
  rw [updateSendmeRate]
  split
  · obtain ⟨arrivals, trimmed, kept⟩ :=
      trimArrivals_ok env.bweSendmeMin (two_le_nEwmaCount env cc) cc.sendmeArrivalTimestamps
    obtain ⟨first, later, rfl⟩ := List.exists_cons_of_ne_nil (kept full)
    simp only [trimmed, peekTimestamp]
    split <;> exact ⟨_, rfl, rfl, rfl, rfl⟩
  · exact ⟨cc, rfl, SameAccounts.refl cc⟩

theorem updateBdpEstimates_ok (cc : CongestionControl) :
    ∃ cc', updateBdpEstimates env currRttUsec broken cc = .ok cc' ∧ SameAccounts cc cc' := by
  rw [updateBdpEstimates]
  split
  · exact ⟨_, rfl, rfl, rfl, rfl⟩
  · split
    · have rates := updateSendmeRate_ok env
        { cc with sendmeArrivalTimestamps := cc.sendmeArrivalTimestamps ++ [env.nowUsec] } (by simp)
      obtain ⟨rated, result, same⟩ := rates
      simp only [result]
      exact ⟨_, rfl, same.inflight, same.sendmeInc, same.pending⟩
    · exact ⟨_, rfl, rfl, rfl, rfl⟩

theorem congestionControlUpdateCircuitBdp_ok (cc : CongestionControl) :
    ∃ updated cc', congestionControlUpdateCircuitBdp env currRttUsec broken cc = .ok (updated, cc')
      ∧ SameAccounts cc cc' := by
  rw [congestionControlUpdateCircuitBdp]
  split
  · exact ⟨_, _, rfl, rfl, rfl, rfl⟩
  · obtain ⟨cc', result, same⟩ := updateBdpEstimates_ok env currRttUsec broken
      { cc with bdp := { cc.bdp with cwndRtt := cc.cwnd * cc.minRttUsec / cc.ewmaRttUsec } }
    simp only [result]
    exact ⟨_, _, rfl, same.inflight, same.sendmeInc, same.pending⟩

/-- The estimates fail only without a timestamp, and use up one. -/
theorem congestionControlUpdateCircuitEstimates_cases (cc : CongestionControl) :
    (cc.sendmePendingTimestamps = []
      ∧ congestionControlUpdateCircuitEstimates env cc = .error .emptyTimestamps)
    ∨ ∃ sentAt updated cc', cc.sendmePendingTimestamps = sentAt :: cc'.sendmePendingTimestamps
      ∧ cc'.inflight = cc.inflight ∧ cc'.sendmeInc = cc.sendmeInc
      ∧ congestionControlUpdateCircuitEstimates env cc = .ok (updated, cc') := by
  rw [congestionControlUpdateCircuitEstimates, congestionControlUpdateCircuitRtt]
  cases waiting : cc.sendmePendingTimestamps with
  | nil => exact .inl ⟨rfl, by simp [dequeueTimestamp]⟩
  | cons sentAt pending =>
    right
    simp only [dequeueTimestamp]
    generalize timeDeltaStalledOrJumped _ _ _ _ = measured
    obtain ⟨fishy, broken⟩ := measured
    cases fishy with
    | true =>
      obtain ⟨updated, cc', result, same⟩ :=
        congestionControlUpdateCircuitBdp_ok env 0 broken
          { cc with sendmePendingTimestamps := pending }
      exact ⟨sentAt, updated, cc', by rw [same.pending], same.inflight, same.sendmeInc, result⟩
    | false =>
      obtain ⟨updated, cc', result, same⟩ :=
        congestionControlUpdateCircuitBdp_ok env (env.nowUsec - sentAt) broken
          (updateRttEstimates env (env.nowUsec - sentAt)
            { cc with sendmePendingTimestamps := pending })
      refine ⟨sentAt, updated, cc', ?_, same.inflight, same.sendmeInc, result⟩
      rw [same.pending]
      rfl

/-! ## Processing a SENDME -/

/-- A result of an algorithm: one increment is acknowledged, or there was no timestamp. -/
def Accounted (cc : CongestionControl) : Except SendmeError CongestionControl → Prop
  | .ok cc' => Acked cc cc'
  | .error err => err = .emptyTimestamps ∧ cc.sendmePendingTimestamps = []

theorem accounted_clamp {cc : CongestionControl} {result : Except SendmeError CongestionControl}
    (accounted : Accounted cc result) : Accounted cc (result.map (clampCwnd env)) := by
  cases result with
  | error err => exact accounted
  | ok cc' => exact accounted.then_same (clampCwnd_same env cc')

theorem congestionControlWestwoodProcessSendme_accounted (cc : CongestionControl) :
    Accounted cc (congestionControlWestwoodProcessSendme env p cc) := by
  rw [congestionControlWestwoodProcessSendme]
  obtain ⟨empty, result⟩ | ⟨sentAt, updated, cc', pending, inflight, sendmeInc, result⟩ :=
    congestionControlUpdateCircuitEstimates_cases env (tickCcEvent cc)
  · rw [result]
    exact ⟨rfl, empty⟩
  · rw [result]
    cases updated with
    | false => exact acked_ackInflight pending inflight sendmeInc (SameAccounts.refl cc')
    | true =>
      have moved : SameAccounts cc'
          (if cc'.nextCcEvent = 0 then westwoodUpdateCwnd p cc' else cc') := by
        split
        · exact westwoodUpdateCwnd_same p cc'
        · exact SameAccounts.refl cc'
      exact acked_ackInflight pending inflight sendmeInc moved

theorem congestionControlVegasProcessSendme_accounted (p : VegasParams) (cc : CongestionControl) :
    Accounted cc (congestionControlVegasProcessSendme env p cc) := by
  rw [congestionControlVegasProcessSendme]
  obtain ⟨empty, result⟩ | ⟨sentAt, updated, cc', pending, inflight, sendmeInc, result⟩ :=
    congestionControlUpdateCircuitEstimates_cases env (tickCcEvent cc)
  · rw [result]
    exact ⟨rfl, empty⟩
  · rw [result]
    cases updated with
    | false => exact acked_ackInflight pending inflight sendmeInc (SameAccounts.refl cc')
    | true =>
      have moved (queueUse : UInt64) : SameAccounts cc'
          (if cc'.inSlowStart then vegasSlowStart p queueUse cc'
           else if cc'.nextCcEvent = 0 then vegasSteadyState p queueUse cc'
           else cc') := by
        split
        · exact vegasSlowStart_same p queueUse cc'
        · split
          · exact ⟨rfl, rfl, rfl⟩
          · exact SameAccounts.refl cc'
      exact acked_ackInflight pending inflight sendmeInc (moved _)

theorem congestionControlNolaProcessSendme_accounted (p : NolaParams) (cc : CongestionControl) :
    Accounted cc (congestionControlNolaProcessSendme env p cc) := by
  simp only [congestionControlNolaProcessSendme]
  have start : SameAccounts cc (if (tickCcEvent cc).nextCcEvent = 0 then
      { tickCcEvent cc with inSlowStart := false } else tickCcEvent cc) := by
    split <;> exact ⟨rfl, rfl, rfl⟩
  obtain ⟨empty, result⟩ | ⟨sentAt, updated, cc', pending, inflight, sendmeInc, result⟩ :=
    congestionControlUpdateCircuitEstimates_cases env (if (tickCcEvent cc).nextCcEvent = 0 then
      { tickCcEvent cc with inSlowStart := false } else tickCcEvent cc)
  · rw [result]
    exact ⟨rfl, start.pending.symm.trans empty⟩
  · rw [result]
    have waiting := start.pending.symm.trans pending
    have flying := inflight.trans start.inflight
    have counted := sendmeInc.trans start.sendmeInc
    cases updated with
    | false => exact acked_ackInflight waiting flying counted (SameAccounts.refl cc')
    | true => exact acked_ackInflight waiting flying counted ⟨rfl, rfl, rfl⟩

theorem congestionControlDispatchCcAlg_accounted (cc : CongestionControl) :
    Accounted cc (congestionControlDispatchCcAlg env cc)
      ∨ congestionControlDispatchCcAlg env cc = .error .assertFailed := by
  rw [congestionControlDispatchCcAlg]
  split
  · next p _ => exact .inl (accounted_clamp env
      (congestionControlWestwoodProcessSendme_accounted env p cc))
  · next p _ => exact .inl (accounted_clamp env
      (congestionControlVegasProcessSendme_accounted env p cc))
  · next p _ => exact .inl (accounted_clamp env
      (congestionControlNolaProcessSendme_accounted env p cc))
  · exact .inr rfl

end

end

/-! ## The three accounts of an end -/

variable {H : Type} (rd : RunningDigest H)

/-- Cells in flight, waiting timestamps and recorded digests agree, after
`packaged` cells and `accepted` SENDMEs. -/
structure Books (inc : UInt8) (e : HopEnd H) (cc : CongestionControl)
    (packaged accepted : Nat) : Prop where
  ccontrol : e.ccontrol = some cc
  sendmeInc : cc.sendmeInc = inc
  counted : cc.inflight.toNat + inc.toNat * accepted = packaged
  timed : cc.sendmePendingTimestamps.length = e.sendmeLastDigests.length
  covered : e.sendmeLastDigests.length * inc.toNat ≤ cc.inflight.toNat

variable {inc : UInt8} {e e' : HopEnd H} {cc : CongestionControl} {packaged accepted : Nat}

theorem Books.same (books : Books inc e cc packaged accepted) (same : SameSender e e') :
    Books inc e' cc packaged accepted := by
  constructor
  · exact same.ccontrol.trans books.ccontrol
  · exact books.sendmeInc
  · exact books.counted
  · rw [same.digests]
    exact books.timed
  · rw [same.digests]
    exact books.covered

theorem dvd_of_circuitSentCellForSendme (ccontrol : e.ccontrol = some cc)
    (below : cc.inflight.toNat < cc.cwnd.toNat) (marked : circuitSentCellForSendme e = true) :
    cc.sendmeInc.toNat ∣ cc.inflight.toNat + 1 := by
  have limit := cc.cwnd.toNat_lt
  rw [circuitSentCellForSendme, ccontrol] at marked
  simp only at marked
  split at marked
  · cases marked
  split at marked
  · cases marked
  · next whole =>
    have rest : ((cc.inflight + 1) % cc.sendmeInc.toUInt64).toNat = 0 := by
      rw [not_not.mp whole]
      rfl
    rw [UInt64.toNat_mod, uint64_toNat_add (by simp; omega)] at rest
    exact Nat.dvd_of_mod_eq_zero rest

theorem covered_succ {len inc inflight : Nat} (covered : len * inc ≤ inflight)
    (whole : inc ∣ inflight + 1) : (len + 1) * inc ≤ inflight + 1 := by
  obtain ⟨m, eq⟩ := whole
  rw [Nat.mul_comm] at eq
  have less : len * inc < m * inc := by omega
  rw [eq]
  exact Nat.mul_le_mul_right inc (Nat.lt_of_mul_lt_mul_right less)

theorem books_packaged (books : Books inc e cc packaged accepted) (cell : HopCell)
    (data : cell.command = .data) (below : cc.inflight.toNat < cc.cwnd.toNat) (nowUsec : UInt64) :
    ∃ cc', Books inc
      (sendmeNoteCircuitDataPackaged nowUsec (relaySendCommandFromEdge rd cell e)).1 cc'
      (packaged + 1) accepted := by
  have limit := cc.cwnd.toNat_lt
  have counted := books.counted
  have grown : (cc.inflight + 1).toNat = cc.inflight.toNat + 1 := uint64_toNat_add (by simp; omega)
  have same : circuitSentCellForSendme (relaySendCommandFromEdge rd cell e)
      = circuitSentCellForSendme e := circuitSentCellForSendme_congr (by simp) (by simp)
  refine ⟨congestionControlNoteCellSent (relaySendCommandFromEdge rd cell e) cc nowUsec, ?_⟩
  simp only [sendmeNoteCircuitDataPackaged, relaySendCommandFromEdge_ccontrol, books.ccontrol,
    congestionControlNoteCellSent, same]
  rw [relaySendCommandFromEdge_eq]
  cases marked : circuitSentCellForSendme e with
  | false =>
    have covered := books.covered
    constructor
    · rfl
    · exact books.sendmeInc
    · simp [grown]
      omega
    · simpa using books.timed
    · simp [grown]
      omega
  | true =>
    have whole := dvd_of_circuitSentCellForSendme books.ccontrol below marked
    rw [books.sendmeInc] at whole
    constructor
    · rfl
    · exact books.sendmeInc
    · simp [grown]
      omega
    · simpa [data] using books.timed
    · simpa [data, grown] using covered_succ books.covered whole

section

variable {consensus : SendmeConsensus} {cell : HopCell} {sent : List HopCell}

section

variable {cellPayload : List UInt8}

theorem connectionEdgePackageRawInbuf_books {streamId : UInt16} {xoffReceived : Bool}
    {inbuf : List InbufCell} {maxCells : Option Int} (books : Books inc e cc packaged accepted)
    (result : connectionEdgePackageRawInbuf rd streamId xoffReceived inbuf maxCells e
      = .ok (e', sent)) : ∃ cc', Books inc e' cc' (packaged + dataCells sent) accepted := by
  induction inbuf generalizing e cc packaged maxCells sent with
  | nil =>
    cases result
    exact ⟨cc, books⟩
  | cons next inbuf ih =>
    rw [connectionEdgePackageRawInbuf] at result
    split at result
    · cases result
      exact ⟨cc, books⟩
    split at result
    · cases result
      exact ⟨cc, books⟩
    next room =>
    have below := inflight_lt_of_window books.ccontrol (by omega)
    split at result
    · cases result
      exact ⟨cc, books⟩
    next conn _ =>
    split at result
    · cases result
      exact ⟨cc, books⟩
    simp only at result
    obtain ⟨cc₁, noted⟩ := books_packaged rd books ⟨.data, streamId, next.payload⟩ rfl below
      next.nowUsec
    replace noted := noted.same (sendmeNoteStreamDataPackaged_sender streamId conn xoffReceived _)
    split at result
    · cases result
    split at result
    · cases result
      exact ⟨cc₁, noted⟩
    · obtain ⟨rest, more, last⟩ := except_map_eq_ok.mp result
      cases last
      obtain ⟨cc', books'⟩ := ih noted more
      refine ⟨cc', ?_⟩
      have cells : dataCells (⟨.data, streamId, next.payload⟩ :: rest.2) = dataCells rest.2 + 1 :=
        List.countP_cons_of_pos (by simp)
      rw [cells, ← Nat.add_assoc, Nat.add_right_comm]
      exact books'

/-! ## Receiving -/

theorem sendmeIsValid_pops {digests rest : List (Bytes 20)}
    (valid : sendmeIsValid consensus digests cellPayload = (true, rest)) :
    ∃ digest, digests = digest :: rest := by
  rw [sendmeIsValid] at valid
  split at valid
  · cases valid
  split at valid
  · cases valid
  split at valid
  · cases valid
  · next digest later =>
    split at valid
    · cases valid
      exact ⟨digest, rfl⟩
    · rw [(Prod.mk.inj valid).2]
      exact ⟨digest, rfl⟩

theorem Books.acked (books : Books inc e cc packaged accepted) {digest : Bytes 20}
    {rest : List (Bytes 20)} (recorded : e.sendmeLastDigests = digest :: rest) :
    cc.sendmePendingTimestamps ≠ [] ∧ inc.toNat ≤ cc.inflight.toNat := by
  have timed := books.timed
  have covered := books.covered
  rw [recorded, List.length_cons] at timed covered
  constructor
  · rintro none_
    simp [none_] at timed
  · rw [Nat.add_mul, Nat.one_mul] at covered
    omega

theorem sendmeProcessCircuitLevel_books {env : CcEnv} (books : Books inc e cc packaged accepted)
    (result : sendmeProcessCircuitLevel consensus env cellPayload e = .ok e') :
    (∃ cc', Books inc e' cc' packaged (accepted + 1)) ∧ inc.toNat ≤ cc.inflight.toNat := by
  rw [sendmeProcessCircuitLevel] at result
  split at result
  · cases result
  next digests valid =>
  obtain ⟨digest, recorded⟩ := sendmeIsValid_pops valid
  have enough := (books.acked recorded).2
  refine ⟨?_, enough⟩
  simp only [books.ccontrol] at result
  cases dispatched : congestionControlDispatchCcAlg env cc with
  | error err =>
    rw [dispatched] at result
    cases result
  | ok cc' =>
    obtain accounted | failed := congestionControlDispatchCcAlg_accounted env cc
    · rw [dispatched] at accounted result
      cases result
      obtain ⟨sentAt, pending⟩ := accounted.pending
      have timed := books.timed
      have covered := books.covered
      have counted := books.counted
      have left : cc'.inflight.toNat = cc.inflight.toNat - inc.toNat := by
        rw [accounted.inflight, books.sendmeInc, uint64_toNat_sub (by simpa using enough)]
        simp
      rw [recorded, List.length_cons] at timed covered
      rw [pending, List.length_cons] at timed
      refine ⟨cc', rfl, accounted.sendmeInc.trans books.sendmeInc, ?_, ?_, ?_⟩
      · rw [left, Nat.mul_add, Nat.mul_one]
        omega
      · exact Nat.succ.inj timed
      · rw [left]
        rw [Nat.add_mul, Nat.one_mul] at covered
        exact Nat.le_sub_of_add_le covered
    · rw [dispatched] at failed
      cases failed

theorem sendmeProcessCircuitLevel_ne_empty (consensus : SendmeConsensus) (env : CcEnv)
    (cellPayload : List UInt8) (books : Books inc e cc packaged accepted) :
    sendmeProcessCircuitLevel consensus env cellPayload e ≠ .error .emptyTimestamps := by
  rw [sendmeProcessCircuitLevel]
  split
  · simp
  next digests valid =>
  obtain ⟨digest, recorded⟩ := sendmeIsValid_pops valid
  simp only [books.ccontrol]
  obtain accounted | failed := congestionControlDispatchCcAlg_accounted env cc
  · cases dispatched : congestionControlDispatchCcAlg env cc with
    | ok cc' => simp [Except.map]
    | error err =>
      rw [dispatched] at accounted
      exact absurd accounted.2 (books.acked recorded).1
  · simp [failed, Except.map]

theorem dataCells_eq_zero {cells : List HopCell} (sendmes : ∀ c ∈ cells, c.command ≠ .data) :
    dataCells cells = 0 := by
  rw [dataCells, List.countP_eq_zero]
  simpa using sendmes

theorem Books.recognized (books : Books inc e cc packaged accepted) {e₁ : HopEnd H}
    (recorded : sendmeRecordReceivedCellDigest rd
      { e with receiveDigest := rd.add e.receiveDigest cell } = .ok e₁) :
    Books inc e₁ cc packaged accepted := by
  have absorbed : SameSender e { e with receiveDigest := rd.add e.receiveDigest cell } :=
    ⟨rfl, rfl, rfl⟩
  exact books.same (absorbed.trans (sendmeRecordReceivedCellDigest_sender rd recorded))

theorem processSendmeCell_stream {env : CcEnv} (stream : cell.streamId ≠ 0)
    (result : processSendmeCell consensus env cell e = .ok e') : SameSender e e' := by
  rw [processSendmeCell, if_neg stream] at result
  split at result
  · cases result
    exact SameSender.refl e
  · exact sendmeProcessStreamLevel_sender result

theorem loneStep_cases {w w' : LoneEnd H} {ev : HopEvent} (taken : LoneStep rd w ev w') :
    ∃ e' sent, hopStep rd w.hop ev = .ok (e', sent)
      ∧ w' = ⟨e', w.packaged + dataCells sent,
        w.accepted + if ev.isCircuitSendme then 1 else 0⟩ := by
  obtain ⟨result, step, rfl⟩ := except_map_eq_ok.mp taken
  exact ⟨result.1, result.2, step, rfl⟩

end

section

variable (books : Books inc e cc packaged accepted)

include books

theorem Books.quiet (same : SameSender e e') (sendmes : ∀ c ∈ sent, c.command ≠ .data) :
    Books inc e' cc (packaged + dataCells sent) (accepted + 0) := by
  rw [dataCells_eq_zero sendmes]
  exact books.same same

theorem circuitReceiveRelayCell_books {reading : Reading}
    (result : circuitReceiveRelayCell rd reading cell e = .ok (e', sent)) :
    (∃ cc', Books inc e' cc' (packaged + dataCells sent)
      (accepted + if (receive cell reading).isCircuitSendme then 1 else 0))
      ∧ ((receive cell reading).isCircuitSendme = true
        → inc.toNat ≤ cc.inflight.toNat) := by
  simp only [circuitReceiveRelayCell] at result
  split at result
  · cases result
  next e₁ recorded =>
  have recognized := books.recognized rd recorded
  split at result
  · next command =>
    have other : (receive cell reading).isCircuitSendme = false := by
      simp [isCircuitSendme, command]
    rw [other]
    refine ⟨⟨cc, ?_⟩, fun circuit => by cases circuit⟩
    apply recognized.quiet (handleRelayData_sender rd result)
    intro c member
    rw [handleRelayData_cells rd result c member]
    simp
  · next command =>
    obtain ⟨e₂, processed, last⟩ := except_map_eq_ok.mp result
    cases last
    by_cases circuit : cell.streamId = 0
    · rw [processSendmeCell, if_pos circuit] at processed
      obtain ⟨⟨cc', after⟩, enough⟩ := sendmeProcessCircuitLevel_books recognized processed
      simp only [isCircuitSendme, command, circuit]
      exact ⟨⟨cc', after⟩, fun _ => enough⟩
    · have other : (receive cell reading).isCircuitSendme = false := by
        simp [isCircuitSendme, circuit]
      rw [other]
      refine ⟨⟨cc, ?_⟩, fun circuit => by cases circuit⟩
      exact recognized.quiet (processSendmeCell_stream circuit processed) (by simp)
  · next command =>
    cases result
    have other : (receive cell reading).isCircuitSendme = false := by
      simp [isCircuitSendme, command]
    rw [other]
    exact ⟨⟨cc, recognized.quiet (SameSender.refl _) (by simp)⟩, fun circuit => by cases circuit⟩

theorem hopStep_books {ev : HopEvent} (result : hopStep rd e ev = .ok (e', sent)) :
    (∃ cc', Books inc e' cc' (packaged + dataCells sent)
      (accepted + if ev.isCircuitSendme then 1 else 0))
      ∧ (ev.isCircuitSendme = true → inc.toNat ≤ cc.inflight.toNat) := by
  cases ev with
  | package streamId xoffReceived inbuf maxCells =>
    refine ⟨?_, fun circuit => by cases circuit⟩
    exact connectionEdgePackageRawInbuf_books rd books result
  | receive cell reading => exact circuitReceiveRelayCell_books rd books result
  | flushed streamId outbufTooFull =>
    have cells := sendmeConnectionEdgeConsiderSending_cells rd streamId outbufTooFull e
    have same := sendmeConnectionEdgeConsiderSending_sender rd streamId outbufTooFull e
    rw [Except.ok.inj result] at cells same
    refine ⟨⟨cc, ?_⟩, fun circuit => by cases circuit⟩
    apply books.quiet same
    intro c member
    rw [cells c member]
    simp
  | send streamId payload =>
    cases result
    refine ⟨⟨cc, ?_⟩, fun circuit => by cases circuit⟩
    apply books.quiet _ (by simp)
    apply relaySendCommandFromEdge_sender
    simp

end

end

/-! ## Runs -/

/-- An end with congestion control, as it is set up. -/
def newLoneEnd (hop : HopEnd H) : LoneEnd H := ⟨hop, 0, 0⟩

theorem books_new (circwindow : Option Int) (params : CcInitParams) (negotiated : inc ≠ 0)
    (digest : Bytes 20) (send receive : H) (openStreams : UInt16 → Bool) :
    Books inc (newHopEnd circwindow (some (congestionControlNew params inc negotiated)) digest send
      receive openStreams) (congestionControlNew params inc negotiated) 0 0 := by
  constructor <;> simp [newHopEnd, congestionControlNew]

theorem connectionEdgePackageRawInbuf_ne_empty (streamId : UInt16) (xoffReceived : Bool)
    (inbuf : List InbufCell) (maxCells : Option Int) (e : HopEnd H) :
    connectionEdgePackageRawInbuf rd streamId xoffReceived inbuf maxCells e
      ≠ .error .emptyTimestamps := by
  induction inbuf generalizing maxCells e with
  | nil => simp [connectionEdgePackageRawInbuf]
  | cons next inbuf ih =>
    rw [connectionEdgePackageRawInbuf]
    split
    · simp
    split
    · simp
    split
    · simp
    split
    · simp
    simp only
    split
    · simp
    split
    · simp
    · rw [ne_eq, except_map_eq_error]
      exact ih _ _

theorem handleRelayData_ne_empty (reading : Reading) (cell : HopCell) (e : HopEnd H) :
    handleRelayData rd reading cell e ≠ .error .emptyTimestamps := by
  simp only [handleRelayData, handleStreamData]
  split
  · simp
  split
  · simp
  split
  · simp
  split
  · simp
  split <;> simp

theorem hopStep_ne_empty (books : Books inc e cc packaged accepted) (ev : HopEvent) :
    hopStep rd e ev ≠ .error .emptyTimestamps := by
  cases ev with
  | package streamId xoffReceived inbuf maxCells =>
    exact connectionEdgePackageRawInbuf_ne_empty rd streamId xoffReceived inbuf maxCells e
  | flushed streamId outbufTooFull => simp [hopStep]
  | send streamId payload => simp [hopStep]
  | receive cell reading =>
    simp only [hopStep, circuitReceiveRelayCell]
    split
    · next err failed =>
      rw [sendmeRecordReceivedCellDigest, circuitSendmeCellIsNext] at failed
      split at failed
      · next asserted =>
        split at asserted
        · cases asserted
        · cases asserted
          cases failed
          simp
      · cases failed
      · cases failed
    · next e₁ recorded =>
      have recognized := books.recognized rd recorded
      split
      · exact handleRelayData_ne_empty rd reading cell e₁
      · by_cases circuit : cell.streamId = 0
        · have other := sendmeProcessCircuitLevel_ne_empty reading.consensus reading.env
            cell.payload recognized
          rw [processSendmeCell, if_pos circuit]
          rw [ne_eq, except_map_eq_error]
          exact other
        · rw [processSendmeCell, if_neg circuit, ne_eq, except_map_eq_error]
          split
          · simp
          · rw [sendmeProcessStreamLevel]
            split
            · simp
            · split <;> simp
      · simp

/-- After any run of packaged cells and of received cells with arbitrary contents: the cells in
flight are those packaged less one increment for each SENDME accepted, with nothing wrapped on
the way; there are as many timestamps as recorded digests; and no event makes the code take a
timestamp from an empty list. -/
theorem inflight_accounted (circwindow : Option Int) (params : CcInitParams)
    (negotiated : inc ≠ 0) (digest : Bytes 20) (send receive : H) (openStreams : UInt16 → Bool)
    {w : LoneEnd H} {ts : List (Transition (LoneEnd H) HopEvent)}
    (run : Run (LoneStep rd) (newLoneEnd (newHopEnd circwindow
      (some (congestionControlNew params inc negotiated)) digest send receive openStreams)) ts w) :
    (∃ cc, w.hop.ccontrol = some cc ∧ cc.inflight.toNat + inc.toNat * w.accepted = w.packaged
      ∧ cc.sendmePendingTimestamps.length = w.hop.sendmeLastDigests.length)
    ∧ (∀ x ∈ ts, x.input.isCircuitSendme = true →
      ∃ cc, x.pre.hop.ccontrol = some cc ∧ inc.toNat ≤ cc.inflight.toNat)
    ∧ ∀ ev, loneStep rd w ev ≠ .error .emptyTimestamps := by
  have start := books_new circwindow params negotiated digest send receive openStreams
  have keep : ∀ x ev y, (∃ cc, Books inc x.hop cc x.packaged x.accepted) → LoneStep rd x ev y →
      ∃ cc, Books inc y.hop cc y.packaged y.accepted := by
    rintro x ev y ⟨cc, books⟩ taken
    obtain ⟨e', sent, step, rfl⟩ := loneStep_cases rd taken
    exact (hopStep_books rd books step).1
  obtain ⟨cc, books⟩ := run.invariant ⟨_, start⟩ keep
  refine ⟨⟨cc, books.ccontrol, books.counted, books.timed⟩, ?_, ?_⟩
  · intro x member circuit
    obtain ⟨⟨cc, earlier⟩, -⟩ := run.invariant_at ⟨_, start⟩ keep x member
    obtain ⟨e', sent, step, -⟩ := loneStep_cases rd (run.step_of_mem x member)
    exact ⟨cc, earlier.ccontrol, (hopStep_books rd earlier step).2 circuit⟩
  · intro ev
    rw [loneStep, ne_eq, except_map_eq_error]
    exact hopStep_ne_empty rd books ev

def vegasParams : CcInitParams :=
  { cwndInit := 124, cwndIncPctSs := 100, cwndInc := 31, cwndMin := 62, cwndIncRate := 1
    ccAlg := .vegas ⟨500, 5000, 186, 124, 248, 372⟩, bdpAlg := .piecewise }

/-- Five cells are packaged, and two SENDMEs without a digest are accepted. -/
def forgedEvents : List HopEvent :=
  [.package 1 false (List.replicate 5 ⟨[], 1000⟩) none, .receive ⟨.sendme, 0, []⟩ steadyReading,
    .receive ⟨.sendme, 0, [0, 0, 0]⟩ steadyReading]

theorem inflight_accounted_forged :
    ∃ w ts, Run (LoneStep countingDigest) (newLoneEnd (newHopEnd none
        (some (congestionControlNew vegasParams 2 (by decide))) (fit 20 []) 0 0 fun _ => true)) ts w
      ∧ w.packaged = 5 ∧ w.accepted = 2
      ∧ (∃ cc, w.hop.ccontrol = some cc ∧ cc.inflight.toNat + (2 : UInt8).toNat * w.accepted
          = w.packaged ∧ cc.sendmePendingTimestamps.length = w.hop.sendmeLastDigests.length)
      ∧ (∀ x ∈ ts, x.input.isCircuitSendme = true →
        ∃ cc, x.pre.hop.ccontrol = some cc ∧ (2 : UInt8).toNat ≤ cc.inflight.toNat)
      ∧ ∀ ev, loneStep countingDigest w ev ≠ .error .emptyTimestamps := by
  have ends : (runLone countingDigest (newLoneEnd (newHopEnd none
      (some (congestionControlNew vegasParams 2 (by decide))) (fit 20 []) 0 0 fun _ => true))
      forgedEvents).any fun w => decide (w.packaged = 5 ∧ w.accepted = 2) := by
    decide +kernel
  obtain ⟨w, result, counts⟩ := (Option.any_eq_true _ _).mp ends
  obtain ⟨packaged, accepted⟩ := of_decide_eq_true counts
  obtain ⟨ts, run⟩ := run_of_runLone countingDigest result
  exact ⟨w, ts, run, packaged, accepted, inflight_accounted countingDigest none vegasParams
    (by decide) (fit 20 []) 0 0 (fun _ => true) run⟩

end RendezMix.Guarantees.CongestionAccounting
