import RendezMix.Source.Sendme

/-!
# Congestion control parameters of the consensus

`congestion_control_new_consensus_params`, `congestion_control_init_params`
and the `set_params` functions of the algorithms. The consensus is a map from
the names of parameters to values; each value is brought into its range and
then truncated to the width of the field that keeps it.
-/
namespace RendezMix.Source

/-- The `net_params` of a consensus. -/
abbrev NetParams := String → Option Int

def int32Max : Int := 2147483647

/-- `TLS_RECORD_MAX_CELLS`: 16 KiB over `CELL_MAX_NETWORK_SIZE`. -/
def tlsRecordMaxCells : Int := 16 * 1024 / 514

def sendmeIncDflt : Int := tlsRecordMaxCells
def circwindowInit : Int := 4 * sendmeIncDflt
def outbufCells : Int := 2 * tlsRecordMaxCells

inductive CcPath
  | exit
  | onion
  | onionSos
  | onionVg
  | sbws
  deriving DecidableEq

/-- The parameters that `congestion_control_common.c` keeps in static variables. -/
structure CcGlobals where
  cwndMax : UInt32
  rttResetPct : UInt8
  ccSendmeInc : UInt8
  ccAlg : Int
  bweSendmeMin : UInt8
  nEwmaCwndPct : UInt8
  nEwmaMax : UInt8
  nEwmaSs : UInt8
  deriving DecidableEq

def congestionControlNewConsensusParams (ns : NetParams) : CcGlobals where
  cwndMax := UInt32.ofInt (networkstatusGetParam (ns "cc_cwnd_max") int32Max 500 int32Max)
  rttResetPct := UInt8.ofInt (networkstatusGetParam (ns "cc_rtt_reset_pct") 100 0 100)
  ccSendmeInc := UInt8.ofInt (networkstatusGetParam (ns "cc_sendme_inc") sendmeIncDflt 1 255)
  ccAlg := networkstatusGetParam (ns "cc_alg") 0 0 3
  bweSendmeMin := UInt8.ofInt (networkstatusGetParam (ns "cc_bwe_min") 5 2 20)
  nEwmaCwndPct := UInt8.ofInt (networkstatusGetParam (ns "cc_ewma_cwnd_pct") 50 1 255)
  nEwmaMax := UInt8.ofInt (networkstatusGetParam (ns "cc_ewma_max") 10 2 int32Max)
  nEwmaSs := UInt8.ofInt (networkstatusGetParam (ns "cc_ewma_ss") 2 2 int32Max)

def congestionControlWestwoodSetParams (ns : NetParams) : WestwoodParams where
  cwndBackoffM := UInt8.ofInt (networkstatusGetParam (ns "cc_westwood_cwnd_m") 75 0 100)
  rttBackoffM := UInt8.ofInt (networkstatusGetParam (ns "cc_westwood_rtt_m") 100 50 100)
  rttThresh := UInt8.ofInt (networkstatusGetParam (ns "cc_westwood_rtt_thresh") 33 0 100)
  minBackoff := networkstatusGetParam (ns "cc_westwood_min_backoff") 0 0 1 ≠ 0

def congestionControlNolaSetParams (ns : NetParams) : NolaParams where
  bdpOvershoot := UInt16.ofInt (networkstatusGetParam (ns "cc_nola_overshoot") 100 0 1000)

/-- The names and defaults that `congestion_control_vegas_set_params` chooses by
the path. -/
structure VegasDefaults where
  alphaStr : String
  betaStr : String
  gammaStr : String
  deltaStr : String
  sscapStr : String
  alpha : Int
  beta : Int
  gamma : Int
  delta : Int
  ssCwndCap : Int

def vegasDefaults : CcPath → VegasDefaults
  | .sbws =>
    { alphaStr := "cc_vegas_alpha_sbws", betaStr := "cc_vegas_beta_sbws"
      gammaStr := "cc_vegas_gamma_sbws", deltaStr := "cc_vegas_delta_sbws"
      sscapStr := "cc_sscap_sbws"
      alpha := 2 * outbufCells - tlsRecordMaxCells, beta := 2 * outbufCells + tlsRecordMaxCells
      gamma := 2 * outbufCells, delta := 4 * outbufCells, ssCwndCap := 400 }
  | .exit | .onionSos =>
    { alphaStr := "cc_vegas_alpha_exit", betaStr := "cc_vegas_beta_exit"
      gammaStr := "cc_vegas_gamma_exit", deltaStr := "cc_vegas_delta_exit"
      sscapStr := "cc_sscap_exit"
      alpha := 2 * outbufCells, beta := 4 * outbufCells
      gamma := 3 * outbufCells, delta := 6 * outbufCells, ssCwndCap := 500 }
  | .onion | .onionVg =>
    { alphaStr := "cc_vegas_alpha_onion", betaStr := "cc_vegas_beta_onion"
      gammaStr := "cc_vegas_gamma_onion", deltaStr := "cc_vegas_delta_onion"
      sscapStr := "cc_sscap_onion"
      alpha := 3 * outbufCells, beta := 7 * outbufCells
      gamma := 5 * outbufCells, delta := 9 * outbufCells, ssCwndCap := 600 }

def congestionControlVegasSetParams (ns : NetParams) (path : CcPath) : VegasParams :=
  let d := vegasDefaults path
  { ssCwndCap := UInt32.ofInt (networkstatusGetParam (ns d.sscapStr) d.ssCwndCap 100 int32Max)
    ssCwndMax := UInt32.ofInt (networkstatusGetParam (ns "cc_ss_max") 5000 500 int32Max)
    alpha := UInt16.ofInt (networkstatusGetParam (ns d.alphaStr) d.alpha 0 1000)
    beta := UInt16.ofInt (networkstatusGetParam (ns d.betaStr) d.beta 0 1000)
    gamma := UInt16.ofInt (networkstatusGetParam (ns d.gammaStr) d.gamma 0 1000)
    delta := UInt16.ofInt (networkstatusGetParam (ns d.deltaStr) d.delta 0 int32Max) }

/-- The member of `cc_alg_t`, with its parameters. -/
def ccAlgOfParam (ns : NetParams) (path : CcPath) (ccAlg : Int) : CcAlg :=
  if ccAlg = 1 then .westwood (congestionControlWestwoodSetParams ns)
  else if ccAlg = 2 then .vegas (congestionControlVegasSetParams ns path)
  else if ccAlg = 3 then .nola (congestionControlNolaSetParams ns)
  else .sendme

/-- The member of `bdp_alg_t`. -/
def bdpAlgOfParam (bdpAlg : Int) : BdpAlg :=
  if bdpAlg = 0 then .cwndRtt
  else if bdpAlg = 1 then .sendmeRate
  else if bdpAlg = 2 then .inflightRtt
  else .piecewise

/-- `congestion_control_init_params`, for the option `AlwaysCongestionControl`. -/
def congestionControlInitParams (ns : NetParams) (alwaysCongestionControl : Bool) (path : CcPath) :
    CcInitParams :=
  let ccAlg := (congestionControlNewConsensusParams ns).ccAlg
  let alg := ccAlgOfParam ns path (if ccAlg = 0 ∧ alwaysCongestionControl = true then 2 else ccAlg)
  { cwndInit := UInt64.ofInt
      (networkstatusGetParam (ns "cc_cwnd_init") circwindowInit sendmeIncDflt 10000)
    cwndIncPctSs := UInt16.ofInt (networkstatusGetParam (ns "cc_cwnd_inc_pct_ss") 100 1 500)
    cwndInc := UInt16.ofInt (networkstatusGetParam (ns "cc_cwnd_inc") tlsRecordMaxCells 1 1000)
    cwndIncRate := UInt8.ofInt (networkstatusGetParam (ns "cc_cwnd_inc_rate") 1 1 250)
    cwndMin := UInt16.ofInt
      (networkstatusGetParam (ns "cc_cwnd_min") (2 * sendmeIncDflt) sendmeIncDflt 1000)
    ccAlg := alg
    bdpAlg := match alg with
      | .sendme => .cwndRtt
      | _ => bdpAlgOfParam (networkstatusGetParam (ns "cc_bdp_alg") 3 0 3) }

/-- The parameters of the consensus that are read at each SENDME. -/
def CcEnv.ReadsFrom (env : CcEnv) (globals : CcGlobals) : Prop :=
  env.cwndMax = globals.cwndMax ∧ env.rttResetPct = globals.rttResetPct
    ∧ env.bweSendmeMin = globals.bweSendmeMin ∧ env.nEwmaCwndPct = globals.nEwmaCwndPct
    ∧ env.nEwmaMax = globals.nEwmaMax ∧ env.nEwmaSs = globals.nEwmaSs

instance (env : CcEnv) (globals : CcGlobals) : Decidable (env.ReadsFrom globals) :=
  instDecidableAnd

end RendezMix.Source
