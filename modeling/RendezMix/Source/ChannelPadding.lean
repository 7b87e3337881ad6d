import RendezMix.Source.Sendme
import RendezMix.Source.VoteDocument

/-!
# Padding against netflow records

The consensus parameters of `core/or/channelpadding.c`, the padding that a peer negotiates, and
the time after which a channel is padded. A failed assertion is `none`.
-/
namespace RendezMix.Source.ChannelPadding

/-! ## Consensus parameters -/

/-- The number of the first entry for a parameter that has one. -/
def netParamValue (netParams : List CString) (paramName : CString) : Option Int :=
  netParams.findSome? fun p =>
    if paramName.isPrefixOf p ∧ p[paramName.length]? = some equalsSign then
      torParseLong (p.drop (paramName.length + 1)) (-int32Bound) (int32Bound - 1)
    else none

def getNetParamFromList (netParams : List CString) (paramName : CString)
    (defaultVal minVal maxVal : Int) : Option Int :=
  if maxVal > minVal ∧ minVal ≤ defaultVal ∧ maxVal ≥ defaultVal then
    let res := networkstatusGetParam (netParamValue netParams paramName) defaultVal minVal maxVal
    if res ≥ minVal ∧ res ≤ maxVal then some res else none
  else none

/-- `networkstatus_get_param`, for the entries of the consensus, if it has any. -/
def consensusParam (netParams : Option (List CString)) (paramName : String)
    (defaultVal minVal maxVal : Int) : Option Int :=
  match netParams with
  | none => some defaultVal
  | some netParams => getNetParamFromList netParams (textBytes paramName) defaultVal minVal maxVal

/-- The `consensus_nf_` variables. -/
structure NetflowParams where
  itoLow : Int
  itoHigh : Int
  itoLowReduced : Int
  itoHighReduced : Int
  conntimeoutRelays : Int
  conntimeoutClients : Int
  padBeforeUsage : Int
  padRelays : Int
  padSingleOnion : Int
  deriving DecidableEq

def channelpaddingNewConsensusParams (ns : Option (List CString)) : Option NetflowParams := do
  let itoLow ← consensusParam ns "nf_ito_low" 1500 0 60000
  let itoHigh ← consensusParam ns "nf_ito_high" 9500 itoLow 60000
  let itoLowReduced ← consensusParam ns "nf_ito_low_reduced" 9000 0 60000
  let itoHighReduced ← consensusParam ns "nf_ito_high_reduced" 14000 itoLowReduced 60000
  let conntimeoutRelays ← consensusParam ns "nf_conntimeout_relays" 3600 60 604800
  let conntimeoutClients ← consensusParam ns "nf_conntimeout_clients" 1800 60 86400
  let padBeforeUsage ← consensusParam ns "nf_pad_before_usage" 1 0 1
  let padRelays ← consensusParam ns "nf_pad_relays" 0 0 1
  let padSingleOnion ← consensusParam ns "nf_pad_single_onion" 1 0 1
  return ⟨itoLow, itoHigh, itoLowReduced, itoHighReduced, conntimeoutRelays, conntimeoutClients,
    padBeforeUsage, padRelays, padSingleOnion⟩

/-! ## Channels -/

/-- The padding settings of a `channel_t`. -/
structure PaddingChannel where
  paddingEnabled : Bool
  paddingTimeoutLowMs : UInt16
  paddingTimeoutHighMs : UInt16

structure ChannelpaddingNegotiate where
  version : UInt8
  command : UInt8
  itoLowMs : UInt16
  itoHighMs : UInt16

/-- `CHANNELPADDING_COMMAND_START` -/
def commandStart : UInt8 := 2

/-- `fromRelay` stands for a peer that may not negotiate: a relay, for a bridge, and any, for a
client. The result is `none` for -1. -/
def channelpaddingUpdatePaddingForChannel (params : NetflowParams) (fromRelay : Bool)
    (padVars : ChannelpaddingNegotiate) : Option PaddingChannel :=
  if padVars.version ≠ 0 then none
  else if fromRelay then none
  else
    let low := UInt16.ofInt (max params.itoLow padVars.itoLowMs.toNat)
    some { paddingEnabled := padVars.command = commandStart, paddingTimeoutLowMs := low,
           paddingTimeoutHighMs := max low padVars.itoHighMs }

/-- `crypto_rand_int`, for the value that its loop accepts. -/
def cryptoRandInt (limit : Nat) (val : UInt32) : Option Int :=
  if limit ≤ 2 ^ 31 ∧ limit < 2 ^ 32 - 1 ∧ limit > 0 then some (val.toNat % limit : Nat) else none

def channelpaddingGetNetflowInactiveTimeoutMs (params : NetflowParams) (chan : PaddingChannel)
    (draw1 draw2 : UInt32) : Option Int :=
  if params.itoLow = 0 ∧ params.itoLow = params.itoHigh then some 0
  else
    let negotiated := chan.paddingTimeoutLowMs ≠ 0 ∧ chan.paddingTimeoutHighMs ≠ 0
    let low := if negotiated then max params.itoLow chan.paddingTimeoutLowMs.toNat
      else params.itoLow
    let high := if negotiated then max params.itoHigh chan.paddingTimeoutHighMs.toNat
      else params.itoHigh
    if low ≥ high then some low
    else do
      let x1 ← cryptoRandInt (high - low).toNat draw1
      let x2 ← cryptoRandInt (high - low).toNat draw2
      return low + max x1 x2

/-! ## Runs -/

/-- A consensus is loaded, or a PADDING_NEGOTIATE cell arrives. -/
inductive PaddingEvent where
  | newConsensus (ns : Option (List CString))
  | negotiate (fromRelay : Bool) (padVars : ChannelpaddingNegotiate)

def paddingStep (event : PaddingEvent) (s : NetflowParams × PaddingChannel) :
    Option (NetflowParams × PaddingChannel) :=
  match event with
  | .newConsensus ns => (channelpaddingNewConsensusParams ns).map fun params => (params, s.2)
  | .negotiate fromRelay padVars =>
    some (s.1, (channelpaddingUpdatePaddingForChannel s.1 fromRelay padVars).getD s.2)

/-- Before the first consensus, with a new channel. -/
def initialPadding (enabled : Bool) : NetflowParams × PaddingChannel :=
  (⟨0, 0, 0, 0, 0, 0, 0, 0, 0⟩, ⟨enabled, 0, 0⟩)

end RendezMix.Source.ChannelPadding
