import Mathlib.Logic.Basic

/-!
# Congestion control of one hop

`congestion_control_common.c` and the three algorithms of Proposal 324 in
`congestion_control_westwood.c`, `congestion_control_vegas.c` and
`congestion_control_nola.c`. All quantities are `uint64_t` and wrap. The log
messages, the trace events and the count of RTT resets for the MetricsPort are
left out; what a call reads of the clock, the circuit and the consensus is
`CcEnv`.
-/
namespace RendezMix.Source

/-- Why the SENDME code gives a circuit up, or cannot go on. -/
inductive SendmeError
  /-- `sendme_is_valid` rejected the cell. -/
  | invalidSendme
  /-- "Unexpected sendme cell from exit relay" or "from client". -/
  | unexpectedSendme
  /-- "Unexpected stream sendme cell." -/
  | unexpectedStreamSendme
  /-- "Congestion control got stream sendme". -/
  | congestionControlStreamSendme
  /-- "(relay data) circ deliver_window below 0. Killing." -/
  | circDeliverWindowBelowZero
  /-- "(relay data) conn deliver_window below 0. Killing." -/
  | connDeliverWindowBelowZero
  /-- "Circuit package window is below 0. Closing circuit." -/
  | circPackageWindowBelowZero
  /-- The first timestamp of an empty list was read. -/
  | emptyTimestamps
  /-- A `tor_assert` failed. -/
  | assertFailed
  deriving DecidableEq

/-! ## The congestion control object -/

inductive BdpAlg
  | cwndRtt
  | sendmeRate
  | inflightRtt
  | piecewise
  deriving DecidableEq

/-- `bdp[NUM_BDP_ALGS]`. -/
structure BdpEstimates where
  cwndRtt : UInt64
  sendmeRate : UInt64
  inflightRtt : UInt64
  piecewise : UInt64
  deriving DecidableEq

def BdpEstimates.get (bdp : BdpEstimates) : BdpAlg → UInt64
  | .cwndRtt => bdp.cwndRtt
  | .sendmeRate => bdp.sendmeRate
  | .inflightRtt => bdp.inflightRtt
  | .piecewise => bdp.piecewise

structure WestwoodParams where
  cwndBackoffM : UInt8
  rttBackoffM : UInt8
  rttThresh : UInt8
  minBackoff : Bool
  deriving DecidableEq

/-- `vegas_params_t`, without the mix percentage, which nothing reads. -/
structure VegasParams where
  ssCwndCap : UInt32
  ssCwndMax : UInt32
  gamma : UInt16
  alpha : UInt16
  beta : UInt16
  delta : UInt16
  deriving DecidableEq

structure NolaParams where
  bdpOvershoot : UInt16
  deriving DecidableEq

/-- `cc_alg`, with the member of the union of parameters that it selects. -/
inductive CcAlg
  | sendme
  | westwood (params : WestwoodParams)
  | vegas (params : VegasParams)
  | nola (params : NolaParams)
  deriving DecidableEq

/-- `congestion_control_t`. The increment was negotiated, so it is not zero. -/
structure CongestionControl where
  sendmePendingTimestamps : List UInt64
  sendmeArrivalTimestamps : List UInt64
  ewmaRttUsec : UInt64
  minRttUsec : UInt64
  maxRttUsec : UInt64
  bdp : BdpEstimates
  cwnd : UInt64
  inflight : UInt64
  nextCcEvent : UInt64
  inSlowStart : Bool
  blockedChan : Bool
  cwndIncPctSs : UInt16
  cwndInc : UInt16
  cwndMin : UInt16
  cwndIncRate : UInt8
  sendmeInc : UInt8
  ccAlg : CcAlg
  bdpAlg : BdpAlg
  sendmeInc_ne_zero : sendmeInc ≠ 0
  deriving DecidableEq

/-- What the congestion control code reads beside its object. -/
structure CcEnv where
  /-- `monotime_absolute_usec()`. -/
  nowUsec : UInt64
  /-- Cells in the queue of the circuit towards its edge's peer. -/
  chanQ : Int32
  blockedOnChan : Bool
  /-- `circuit_has_active_streams`. -/
  activeStreams : Bool
  /-- `is_monotime_clock_broken`, which other circuits change as well. -/
  clockBroken : Bool
  cwndMax : UInt32
  nEwmaCwndPct : UInt8
  nEwmaMax : UInt8
  nEwmaSs : UInt8
  bweSendmeMin : UInt8
  rttResetPct : UInt8
  deriving DecidableEq

def cwndUpdateRate (cc : CongestionControl) : UInt64 :=
  if cc.inSlowStart then
    (cc.cwnd + (cc.sendmeInc / 2).toUInt64) / cc.sendmeInc.toUInt64
  else
    (cc.cwnd + cc.cwndIncRate.toUInt64 * cc.sendmeInc.toUInt64 / 2)
      / (cc.cwndIncRate.toUInt64 * cc.sendmeInc.toUInt64)

def sendmePerCwnd (cc : CongestionControl) : UInt64 :=
  (cc.cwnd + (cc.sendmeInc / 2).toUInt64) / cc.sendmeInc.toUInt64

def cwndIncSs (cc : CongestionControl) : UInt64 :=
  cc.cwndIncPctSs.toUInt64 * cc.cwnd / 100

def nCountEwma (curr prev n : UInt64) : UInt64 :=
  if prev = 0 then curr else (2 * curr + (n - 1) * prev) / (n + 1)

def percentMaxMix (a b : UInt64) (pctMax : UInt8) : UInt64 :=
  if 100 < pctMax then max a b
  else pctMax.toUInt64 * max a b / 100 + (100 - pctMax.toUInt64) * min a b / 100

/-- The consensus values that `congestion_control_init_params` copies. -/
structure CcInitParams where
  cwndInit : UInt64
  cwndIncPctSs : UInt16
  cwndInc : UInt16
  cwndMin : UInt16
  cwndIncRate : UInt8
  ccAlg : CcAlg
  bdpAlg : BdpAlg
  deriving DecidableEq

def congestionControlNew (params : CcInitParams) (sendmeInc : UInt8) (negotiated : sendmeInc ≠ 0) :
    CongestionControl :=
  let cc : CongestionControl :=
    { sendmePendingTimestamps := [], sendmeArrivalTimestamps := []
      ewmaRttUsec := 0, minRttUsec := 0, maxRttUsec := 0, bdp := ⟨0, 0, 0, 0⟩
      cwnd := params.cwndInit, inflight := 0, nextCcEvent := 0
      inSlowStart := true, blockedChan := false
      cwndIncPctSs := params.cwndIncPctSs, cwndInc := params.cwndInc, cwndMin := params.cwndMin
      cwndIncRate := params.cwndIncRate, sendmeInc := sendmeInc
      ccAlg := params.ccAlg, bdpAlg := params.bdpAlg, sendmeInc_ne_zero := negotiated }
  { cc with nextCcEvent := cwndUpdateRate cc }

/-! ## Timestamps and round trip times -/

def dequeueTimestamp : List UInt64 → Except SendmeError (UInt64 × List UInt64)
  | [] => .error .emptyTimestamps
  | timestamp :: rest => .ok (timestamp, rest)

def peekTimestamp : List UInt64 → Except SendmeError UInt64
  | [] => .error .emptyTimestamps
  | timestamp :: _ => .ok timestamp

def nEwmaCount (env : CcEnv) (cc : CongestionControl) : UInt64 :=
  let ewmaCnt :=
    if cc.inSlowStart then env.nEwmaSs.toUInt64
    else min (cwndUpdateRate cc * env.nEwmaCwndPct.toUInt64 / 100) env.nEwmaMax.toUInt64
  max ewmaCnt 2

def timeDeltaShouldUseHeuristics (cc : CongestionControl) : Bool :=
  (!cc.inSlowStart && cc.ewmaRttUsec != 0) || cc.bdp.sendmeRate != 0

def deltaDiscrepencyRatioMax : UInt64 := 5000

/-- `time_delta_stalled_or_jumped`: the answer, and the new value of
`is_monotime_clock_broken`. -/
def timeDeltaStalledOrJumped (cc : CongestionControl) (broken : Bool) (oldDelta newDelta : UInt64) :
    Bool × Bool :=
  if newDelta = 0 then (true, true)
  else if !timeDeltaShouldUseHeuristics cc then (false, broken)
  else if oldDelta > newDelta * deltaDiscrepencyRatioMax then (broken, broken)
  else if newDelta > oldDelta * deltaDiscrepencyRatioMax then (true, broken)
  else (false, false)

/-- The estimates of the RTT after a measurement that is not fishy. -/
def updateRttEstimates (env : CcEnv) (rtt : UInt64) (cc : CongestionControl) :
    CongestionControl :=
  let ewma := nCountEwma rtt cc.ewmaRttUsec (nEwmaCount env cc)
  { cc with
    ewmaRttUsec := ewma
    maxRttUsec := if rtt > cc.maxRttUsec then rtt else cc.maxRttUsec
    minRttUsec :=
      if cc.minRttUsec = 0 then ewma
      else if cc.cwnd = cc.cwndMin.toUInt64 then percentMaxMix ewma cc.minRttUsec env.rttResetPct
      else if ewma < cc.minRttUsec then ewma
      else cc.minRttUsec }

/-- `congestion_control_update_circuit_rtt`: the RTT, or 0 if it could not be
measured, and the new value of `is_monotime_clock_broken`. -/
def congestionControlUpdateCircuitRtt (env : CcEnv) (cc : CongestionControl) :
    Except SendmeError (UInt64 × Bool × CongestionControl) :=
  match dequeueTimestamp cc.sendmePendingTimestamps with
  | .error err => .error err
  | .ok (sentAt, pending) =>
    let cc := { cc with sendmePendingTimestamps := pending }
    let rtt := env.nowUsec - sentAt
    match timeDeltaStalledOrJumped cc env.clockBroken cc.ewmaRttUsec rtt with
    | (true, broken) => .ok (0, broken, cc)
    | (false, broken) => .ok (rtt, broken, updateRttEstimates env rtt cc)

/-! ## The bandwidth-delay product -/

/-- The length of the channel's queue as it enters the 64-bit formulas. -/
def CcEnv.chanQ64 (env : CcEnv) : UInt64 := env.chanQ.toInt64.toUInt64

/-- The estimates while no RTT was ever measured. -/
def updateBdpWithoutRtt (env : CcEnv) (cc : CongestionControl) : CongestionControl :=
  let cwnd :=
    if env.blockedOnChan then
      if env.chanQ.toInt64 ≥ cc.cwnd.toInt64 then cc.cwndMin.toUInt64
      else max (cc.cwnd - env.chanQ64) cc.cwndMin.toUInt64
    else cc.cwnd
  { cc with blockedChan := env.blockedOnChan, bdp := ⟨cwnd, cwnd, cwnd, cwnd⟩ }

/-- The loop that trims the list of arrivals to `bwe_sendme_min` or to
`n_ewma_count` timestamps. -/
def trimArrivals (bweSendmeMin : UInt8) (ewmaCnt : UInt64) :
    List UInt64 → Except SendmeError (List UInt64)
  | [] => if 0 > bweSendmeMin.toNat ∧ 0 > ewmaCnt then .error .emptyTimestamps else .ok []
  | timestamp :: rest =>
    if (timestamp :: rest).length > bweSendmeMin.toNat
        ∧ UInt64.ofNat (timestamp :: rest).length > ewmaCnt then
      trimArrivals bweSendmeMin ewmaCnt rest
    else .ok (timestamp :: rest)

/-- The SENDME-based estimate, once there are enough arrivals. -/
def updateSendmeRate (env : CcEnv) (cc : CongestionControl) :
    Except SendmeError CongestionControl :=
  if cc.sendmeArrivalTimestamps.length ≥ env.bweSendmeMin.toNat then
    match trimArrivals env.bweSendmeMin (nEwmaCount env cc) cc.sendmeArrivalTimestamps with
    | .error err => .error err
    | .ok arrivals =>
      match peekTimestamp arrivals with
      | .error err => .error err
      | .ok timestampUsec =>
        let cc := { cc with sendmeArrivalTimestamps := arrivals }
        let delta := env.nowUsec - timestampUsec
        if delta > 0 then
          let cells := UInt64.ofNat (arrivals.length - 1) * cc.sendmeInc.toUInt64
          let sendmeRateBdp := cells * cc.minRttUsec / delta
          let rate := nCountEwma sendmeRateBdp cc.bdp.sendmeRate (nEwmaCount env cc)
          .ok { cc with bdp := { cc.bdp with sendmeRate := rate } }
        else .ok cc
  else .ok cc

/-- The SENDME-based and the inflight estimates. -/
def updateBdpEstimates (env : CcEnv) (currRttUsec : UInt64) (broken : Bool)
    (cc : CongestionControl) : Except SendmeError CongestionControl :=
  if !env.blockedOnChan && !env.activeStreams then
    .ok { cc with sendmeArrivalTimestamps := [] }
  else if currRttUsec != 0 && !broken then
    let cc := { cc with
      sendmeArrivalTimestamps := cc.sendmeArrivalTimestamps ++ [env.nowUsec] }
    match updateSendmeRate env cc with
    | .error err => .error err
    | .ok cc =>
      let inflight :=
        (cc.inflight - env.chanQ64) * cc.minRttUsec / max cc.ewmaRttUsec currRttUsec
      .ok { cc with bdp := { cc.bdp with inflightRtt := inflight } }
  else
    let inflight := (cc.inflight - env.chanQ64) * cc.minRttUsec / cc.ewmaRttUsec
    .ok { cc with bdp := { cc.bdp with inflightRtt := inflight } }

/-- The piecewise estimate, and the note whether the channel is blocked. -/
def updateBdpPiecewise (env : CcEnv) (cc : CongestionControl) : CongestionControl :=
  let nextCcEvent := if env.blockedOnChan != cc.blockedChan then 0 else cc.nextCcEvent
  let piecewise :=
    if env.blockedOnChan then
      if cc.bdp.sendmeRate ≠ 0 then min cc.bdp.inflightRtt cc.bdp.sendmeRate
      else cc.bdp.inflightRtt
    else max cc.bdp.sendmeRate cc.bdp.cwndRtt
  { cc with
    nextCcEvent := nextCcEvent
    blockedChan := env.blockedOnChan
    bdp := { cc.bdp with piecewise := if piecewise = 0 then cc.bdp.cwndRtt else piecewise } }

/-- `congestion_control_update_circuit_bdp`: whether the BDP was updated. -/
def congestionControlUpdateCircuitBdp (env : CcEnv) (currRttUsec : UInt64) (broken : Bool)
    (cc : CongestionControl) : Except SendmeError (Bool × CongestionControl) :=
  if cc.ewmaRttUsec = 0 then .ok (env.blockedOnChan, updateBdpWithoutRtt env cc)
  else
    let cwndRtt := cc.cwnd * cc.minRttUsec / cc.ewmaRttUsec
    match updateBdpEstimates env currRttUsec broken
        { cc with bdp := { cc.bdp with cwndRtt := cwndRtt } } with
    | .error err => .error err
    | .ok cc => .ok (env.blockedOnChan || currRttUsec != 0, updateBdpPiecewise env cc)

def congestionControlUpdateCircuitEstimates (env : CcEnv) (cc : CongestionControl) :
    Except SendmeError (Bool × CongestionControl) :=
  match congestionControlUpdateCircuitRtt env cc with
  | .error err => .error err
  | .ok (currRttUsec, broken, cc) => congestionControlUpdateCircuitBdp env currRttUsec broken cc

/-! ## The algorithms -/

/-- "Update ack counter until next congestion signal event is allowed". -/
def tickCcEvent (cc : CongestionControl) : CongestionControl :=
  { cc with nextCcEvent := if cc.nextCcEvent ≠ 0 then cc.nextCcEvent - 1 else cc.nextCcEvent }

/-- "Update inflight with ack". -/
def ackInflight (cc : CongestionControl) : CongestionControl :=
  { cc with inflight := cc.inflight - cc.sendmeInc.toUInt64 }

def westwoodRttSignal (p : WestwoodParams) (cc : CongestionControl) : UInt64 :=
  ((100 - p.rttThresh.toUInt64) * cc.minRttUsec + p.rttThresh.toUInt64 * cc.maxRttUsec) / 100

def westwoodRttMaxBackoff (p : WestwoodParams) (cc : CongestionControl) : UInt64 :=
  cc.minRttUsec + (p.rttBackoffM.toUInt64 * (cc.maxRttUsec - cc.minRttUsec)) / 100

def usecOneMs : UInt64 := 1000

def westwoodIsCongested (p : WestwoodParams) (cc : CongestionControl) : Bool :=
  if cc.blockedChan then true
  else if westwoodRttSignal p cc < cc.minRttUsec
      ∨ westwoodRttSignal p cc - cc.minRttUsec < usecOneMs then false
  else cc.ewmaRttUsec > westwoodRttSignal p cc

/-- The congestion window of Westwood, grown or backed off. -/
def westwoodMoveCwnd (p : WestwoodParams) (cc : CongestionControl) : CongestionControl :=
  if !westwoodIsCongested p cc then
    if cc.inSlowStart then { cc with cwnd := max (cc.cwnd + cwndIncSs cc) (cc.bdp.get cc.bdpAlg) }
    else { cc with cwnd := cc.cwnd + cc.cwndInc.toUInt64 }
  else
    let backoff := cc.cwnd * p.cwndBackoffM.toUInt64 / 100
    { cc with
      cwnd := if p.minBackoff then min backoff (cc.bdp.get cc.bdpAlg)
        else max backoff (cc.bdp.get cc.bdpAlg)
      inSlowStart := false
      maxRttUsec := westwoodRttMaxBackoff p cc }

/-- The update of Westwood once per window. -/
def westwoodUpdateCwnd (p : WestwoodParams) (cc : CongestionControl) : CongestionControl :=
  let cc := westwoodMoveCwnd p cc
  let cc := { cc with cwnd := max cc.cwnd cc.cwndMin.toUInt64 }
  { cc with nextCcEvent := cwndUpdateRate cc }

def congestionControlWestwoodProcessSendme (env : CcEnv) (p : WestwoodParams)
    (cc : CongestionControl) : Except SendmeError CongestionControl :=
  match congestionControlUpdateCircuitEstimates env (tickCcEvent cc) with
  | .error err => .error err
  | .ok (false, cc) => .ok (ackInflight cc)
  | .ok (true, cc) =>
    .ok (ackInflight (if cc.nextCcEvent = 0 then westwoodUpdateCwnd p cc else cc))

def vegasBdp (cc : CongestionControl) : UInt64 := cc.bdp.cwndRtt

def rfc3742SsInc (p : VegasParams) (cc : CongestionControl) : UInt64 :=
  if cc.cwnd ≤ p.ssCwndCap.toUInt64 then
    (cc.cwndIncPctSs.toUInt64 * cc.sendmeInc.toUInt64 + 50) / 100
  else (cc.sendmeInc.toUInt64 * p.ssCwndCap.toUInt64 + cc.cwnd) / (2 * cc.cwnd)

def congestionControlVegasExitSlowStart (cc : CongestionControl) : CongestionControl :=
  let cc := { cc with inSlowStart := false }
  { cc with nextCcEvent := cwndUpdateRate cc }

/-- The congestion window of Vegas in slow start, before its maximum. -/
def vegasSlowStartCwnd (p : VegasParams) (queueUse : UInt64) (cc : CongestionControl) :
    CongestionControl :=
  if queueUse < p.gamma.toUInt64 ∧ cc.blockedChan = false then
    let inc := rfc3742SsInc p cc
    let grown := { cc with cwnd := cc.cwnd + inc }
    if inc * sendmePerCwnd cc ≤ cc.cwndInc.toUInt64 then congestionControlVegasExitSlowStart grown
    else { grown with nextCcEvent := 1 }
  else
    congestionControlVegasExitSlowStart { cc with cwnd := vegasBdp cc + p.gamma.toUInt64 }

/-- The update of Vegas in slow start. -/
def vegasSlowStart (p : VegasParams) (queueUse : UInt64) (cc : CongestionControl) :
    CongestionControl :=
  let cc := vegasSlowStartCwnd p queueUse cc
  if cc.cwnd ≥ p.ssCwndMax.toUInt64 then
    congestionControlVegasExitSlowStart { cc with cwnd := p.ssCwndMax.toUInt64 }
  else cc

/-- The congestion window of Vegas after slow start, once per window. -/
def vegasSteadyState (p : VegasParams) (queueUse : UInt64) (cc : CongestionControl) :
    CongestionControl :=
  let cwnd :=
    if queueUse > p.delta.toUInt64 then vegasBdp cc + p.delta.toUInt64 - cc.cwndInc.toUInt64
    else if queueUse > p.beta.toUInt64 ∨ cc.blockedChan = true then cc.cwnd - cc.cwndInc.toUInt64
    else if queueUse < p.alpha.toUInt64 then cc.cwnd + cc.cwndInc.toUInt64
    else cc.cwnd
  let cc := { cc with cwnd := max cwnd cc.cwndMin.toUInt64 }
  { cc with nextCcEvent := cwndUpdateRate cc }

def congestionControlVegasProcessSendme (env : CcEnv) (p : VegasParams)
    (cc : CongestionControl) : Except SendmeError CongestionControl :=
  match congestionControlUpdateCircuitEstimates env (tickCcEvent cc) with
  | .error err => .error err
  | .ok (false, cc) => .ok (ackInflight cc)
  | .ok (true, cc) =>
    let queueUse := if vegasBdp cc > cc.cwnd then 0 else cc.cwnd - vegasBdp cc
    .ok (ackInflight
      (if cc.inSlowStart then vegasSlowStart p queueUse cc
       else if cc.nextCcEvent = 0 then vegasSteadyState p queueUse cc
       else cc))

def congestionControlNolaProcessSendme (env : CcEnv) (p : NolaParams)
    (cc : CongestionControl) : Except SendmeError CongestionControl :=
  let cc := tickCcEvent cc
  let cc := if cc.nextCcEvent = 0 then { cc with inSlowStart := false } else cc
  match congestionControlUpdateCircuitEstimates env cc with
  | .error err => .error err
  | .ok (false, cc) => .ok (ackInflight cc)
  | .ok (true, cc) =>
    let cwnd :=
      if cc.blockedChan then cc.bdp.get cc.bdpAlg
      else cc.bdp.get cc.bdpAlg + p.bdpOvershoot.toUInt64
    .ok (ackInflight { cc with cwnd := max cwnd cc.cwndMin.toUInt64 })

/-- "exceeds max %d, clamping." -/
def clampCwnd (env : CcEnv) (cc : CongestionControl) : CongestionControl :=
  if cc.cwnd > env.cwndMax.toUInt64 then { cc with cwnd := env.cwndMax.toUInt64 } else cc

/-- `congestion_control_dispatch_cc_alg`, which returns 0 wherever it returns. -/
def congestionControlDispatchCcAlg (env : CcEnv) (cc : CongestionControl) :
    Except SendmeError CongestionControl :=
  match cc.ccAlg with
  | .westwood p => (congestionControlWestwoodProcessSendme env p cc).map (clampCwnd env)
  | .vegas p => (congestionControlVegasProcessSendme env p cc).map (clampCwnd env)
  | .nola p => (congestionControlNolaProcessSendme env p cc).map (clampCwnd env)
  | .sendme => .error .assertFailed

end RendezMix.Source

/-!
# What congestion control divides by

The divisions by something that is not a constant, and the subtractions of the channel's queue from
the cells in flight, that the functions of `CongestionControl` make for a Vegas SENDME, in their
order. The arguments of `log_info` are evaluated whether or not the message is written.
-/
namespace RendezMix.Source

inductive CcOperation
  | divideBy (divisor : UInt64)
  /-- `cc->inflight - chan_q` -/
  | lessQueue (inflight : UInt64) (chanQ : Int32)
  deriving DecidableEq

/-- The divisor is not zero, and the difference does not wrap. -/
def CcOperation.Safe : CcOperation → Prop
  | .divideBy divisor => divisor ≠ 0
  | .lessQueue inflight chanQ => chanQ.toInt ≤ inflight.toNat

instance (op : CcOperation) : Decidable op.Safe := by
  cases op <;> unfold CcOperation.Safe <;> infer_instance

/-- In `CWND_UPDATE_RATE`. -/
def cwndUpdateRateDivisor (cc : CongestionControl) : UInt64 :=
  if cc.inSlowStart then cc.sendmeInc.toUInt64
  else cc.cwndIncRate.toUInt64 * cc.sendmeInc.toUInt64

/-- In `SENDME_PER_CWND`. -/
def sendmePerCwndDivisor (cc : CongestionControl) : UInt64 := cc.sendmeInc.toUInt64

def nCountEwmaOperations (prev n : UInt64) : List CcOperation :=
  if prev = 0 then [] else [.divideBy (n + 1)]

def nEwmaCountOperations (cc : CongestionControl) : List CcOperation :=
  if cc.inSlowStart then [] else [.divideBy (cwndUpdateRateDivisor cc)]

def updateCircuitRttOperations (env : CcEnv) (cc : CongestionControl) : List CcOperation :=
  match dequeueTimestamp cc.sendmePendingTimestamps with
  | .error _ => []
  | .ok (sentAt, pending) =>
    let cc := { cc with sendmePendingTimestamps := pending }
    let rtt := env.nowUsec - sentAt
    match timeDeltaStalledOrJumped cc env.clockBroken cc.ewmaRttUsec rtt with
    | (true, _) => []
    | (false, _) =>
      nEwmaCountOperations cc ++ nCountEwmaOperations cc.ewmaRttUsec (nEwmaCount env cc)

/-- `n_ewma_count` is in the condition of the loop. -/
def trimArrivalsOperations (bweSendmeMin : UInt8) (ewmaCnt : UInt64) (cc : CongestionControl) :
    List UInt64 → List CcOperation
  | [] => []
  | timestamp :: rest =>
    if (timestamp :: rest).length > bweSendmeMin.toNat then
      nEwmaCountOperations cc
        ++ if UInt64.ofNat (timestamp :: rest).length > ewmaCnt then
            trimArrivalsOperations bweSendmeMin ewmaCnt cc rest
          else []
    else []

def updateSendmeRateOperations (env : CcEnv) (cc : CongestionControl) : List CcOperation :=
  if cc.sendmeArrivalTimestamps.length ≥ env.bweSendmeMin.toNat then
    trimArrivalsOperations env.bweSendmeMin (nEwmaCount env cc) cc cc.sendmeArrivalTimestamps
      ++ match trimArrivals env.bweSendmeMin (nEwmaCount env cc) cc.sendmeArrivalTimestamps with
        | .error _ => []
        | .ok arrivals =>
          match peekTimestamp arrivals with
          | .error _ => []
          | .ok timestampUsec =>
            let cc := { cc with sendmeArrivalTimestamps := arrivals }
            let delta := env.nowUsec - timestampUsec
            if delta > 0 then
              [.divideBy delta] ++ nEwmaCountOperations cc
                ++ nCountEwmaOperations cc.bdp.sendmeRate (nEwmaCount env cc)
            else []
  else []

def updateBdpEstimatesOperations (env : CcEnv) (currRttUsec : UInt64) (broken : Bool)
    (cc : CongestionControl) : List CcOperation :=
  if !env.blockedOnChan && !env.activeStreams then []
  else if currRttUsec != 0 && !broken then
    let cc := { cc with
      sendmeArrivalTimestamps := cc.sendmeArrivalTimestamps ++ [env.nowUsec] }
    updateSendmeRateOperations env cc
      ++ match updateSendmeRate env cc with
        | .error _ => []
        | .ok cc =>
          [.lessQueue cc.inflight env.chanQ, .divideBy (max cc.ewmaRttUsec currRttUsec)]
  else [.lessQueue cc.inflight env.chanQ, .divideBy cc.ewmaRttUsec]

def updateCircuitBdpOperations (env : CcEnv) (currRttUsec : UInt64) (broken : Bool)
    (cc : CongestionControl) : List CcOperation :=
  if cc.ewmaRttUsec = 0 then []
  else
    let cwndRtt := cc.cwnd * cc.minRttUsec / cc.ewmaRttUsec
    [.divideBy cc.ewmaRttUsec]
      ++ updateBdpEstimatesOperations env currRttUsec broken
        { cc with bdp := { cc.bdp with cwndRtt := cwndRtt } }

/-- In `congestion_control_vegas_log`. -/
def vegasLogDivisor (cc : CongestionControl) : UInt64 := max cc.minRttUsec cc.ewmaRttUsec

def rfc3742SsIncOperations (p : VegasParams) (cc : CongestionControl) : List CcOperation :=
  if cc.cwnd ≤ p.ssCwndCap.toUInt64 then [] else [.divideBy (2 * cc.cwnd)]

/-- The end of slow start is logged before and after it. -/
def vegasExitSlowStartOperations (cc : CongestionControl) : List CcOperation :=
  let exited := congestionControlVegasExitSlowStart cc
  [.divideBy (vegasLogDivisor cc), .divideBy (cwndUpdateRateDivisor exited),
    .divideBy (vegasLogDivisor exited)]

def vegasSlowStartCwndOperations (p : VegasParams) (queueUse : UInt64) (cc : CongestionControl) :
    List CcOperation :=
  if queueUse < p.gamma.toUInt64 ∧ cc.blockedChan = false then
    let inc := rfc3742SsInc p cc
    let grown := { cc with cwnd := cc.cwnd + inc }
    rfc3742SsIncOperations p cc ++ [.divideBy (sendmePerCwndDivisor cc)]
      ++ if inc * sendmePerCwnd cc ≤ cc.cwndInc.toUInt64 then vegasExitSlowStartOperations grown
        else []
  else vegasExitSlowStartOperations { cc with cwnd := vegasBdp cc + p.gamma.toUInt64 }

def vegasSlowStartOperations (p : VegasParams) (queueUse : UInt64) (cc : CongestionControl) :
    List CcOperation :=
  let moved := vegasSlowStartCwnd p queueUse cc
  vegasSlowStartCwndOperations p queueUse cc
    ++ if moved.cwnd ≥ p.ssCwndMax.toUInt64 then
        vegasExitSlowStartOperations { moved with cwnd := p.ssCwndMax.toUInt64 }
      else []

def vegasSteadyStateOperations (p : VegasParams) (queueUse : UInt64) (cc : CongestionControl) :
    List CcOperation :=
  let moved := vegasSteadyState p queueUse cc
  [.divideBy (cwndUpdateRateDivisor moved), .divideBy (vegasLogDivisor moved)]

/-- After the estimates. -/
def vegasMoveOperations (p : VegasParams) (cc : CongestionControl) : List CcOperation :=
  let queueUse := if vegasBdp cc > cc.cwnd then 0 else cc.cwnd - vegasBdp cc
  if cc.inSlowStart then vegasSlowStartOperations p queueUse cc
  else if cc.nextCcEvent = 0 then vegasSteadyStateOperations p queueUse cc
  else []

/-- Where the estimates were updated, the window is. -/
def afterBdpOperations (p : VegasParams) :
    Except SendmeError (Bool × CongestionControl) → List CcOperation
  | .ok (true, cc) => vegasMoveOperations p cc
  | _ => []

def afterRttOperations (env : CcEnv) (p : VegasParams) :
    Except SendmeError (UInt64 × Bool × CongestionControl) → List CcOperation
  | .error _ => []
  | .ok (currRttUsec, broken, cc) =>
    updateCircuitBdpOperations env currRttUsec broken cc
      ++ afterBdpOperations p (congestionControlUpdateCircuitBdp env currRttUsec broken cc)

/-- In `congestion_control_vegas_process_sendme`. -/
def vegasProcessSendmeOperations (env : CcEnv) (p : VegasParams) (cc : CongestionControl) :
    List CcOperation :=
  let cc := tickCcEvent cc
  updateCircuitRttOperations env cc
    ++ afterRttOperations env p (congestionControlUpdateCircuitRtt env cc)

end RendezMix.Source
