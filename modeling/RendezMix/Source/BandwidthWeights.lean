import RendezMix.Source.Dirvote

/-!
# Bandwidth totals and bandwidth weights

`update_total_bandwidth_weights`, `networkstatus_check_weights` and
`networkstatus_compute_bw_weights_v10` of `feature/dirauth/dirvote.c`, and
`guard_get_guardfraction_bandwidth` of `feature/client/entrynodes.c`. A failed assertion is
`none`. Totals and weights are integers without a bound, and `/` is the division that
truncates. How a product of `double`s is rounded is a parameter.
-/
namespace RendezMix.Source.BandwidthWeights
open Library.Decimals

/-! ## Totals -/

/-- The bandwidth of guards (G), of middle relays (M), of exits (E), of relays that are both
(D), and of all (T). -/
structure BwTotals where
  g : Int
  m : Int
  e : Int
  d : Int
  t : Int
  deriving DecidableEq

/-- The totals before the first router. -/
def BwTotals.start : BwTotals := ⟨1, 1, 1, 1, 4⟩

/-- The rounding of a result to a `double`: it keeps the order, and leaves integers alone that
a `double` can hold. -/
structure DoubleRounding where
  round : Rat → Rat
  mono : ∀ x y, x ≤ y → round x ≤ round y
  exact_int : ∀ n : Int, n.natAbs ≤ 2 ^ 53 → round n = n

/-- `tor_lround`: halves are rounded away from zero. -/
def torLround (x : Rat) : Int := if 0 ≤ x then ⌊x + 1 / 2⌋ else -⌊-x + 1 / 2⌋

structure GuardfractionBandwidth where
  guardBw : Int
  nonGuardBw : Int
  deriving DecidableEq

def intMaxBandwidth : Int := 2 ^ 31 - 1

/-- The part of a bandwidth that counts as the bandwidth of a guard, before it is narrowed. -/
def guardShare (double : DoubleRounding) (origBandwidth : Int) (percentage : UInt32) : Int :=
  torLround (double.round (double.round (percentage.toNat / 100) * origBandwidth))

def guardGetGuardfractionBandwidth (double : DoubleRounding) (origBandwidth : Int)
    (percentage : UInt32) : Option GuardfractionBandwidth :=
  if percentage ≤ 100 ∧ guardShare double origBandwidth percentage ≤ intMaxBandwidth then
    some ⟨guardShare double origBandwidth percentage,
      origBandwidth - guardShare double origBandwidth percentage⟩
  else none

/-- The fields of a `routerstatus_t` that the totals are computed from. -/
structure RsBandwidth where
  bandwidthKb : Option UInt32
  guardfractionPercentage : Option UInt32
  deriving DecidableEq

/-- `(int) bandwidth_kb` -/
def asInt (bandwidthKb : UInt32) : Int := Int.bmod bandwidthKb.toNat (2 ^ 32)

/-- The two amounts that a router is counted with: `default_bandwidth` and, where it has a
guardfraction, `guardfraction_bandwidth`. -/
def splitBandwidth (double : DoubleRounding) (bandwidthKb : UInt32) (isGuard : Bool) :
    Option UInt32 → Option (Int × Int)
  | none => some (asInt bandwidthKb, 0)
  | some percentage =>
    if isGuard then
      (guardGetGuardfractionBandwidth double (asInt bandwidthKb) percentage).map fun bw =>
        (bw.guardBw, bw.nonGuardBw)
    else none

/-- Add the two amounts to the classes of a router; the second one is zero without a
guardfraction. -/
def addToClasses (isExit isGuard : Bool) (defaultBandwidth guardfractionBandwidth : Int)
    (totals : BwTotals) : BwTotals :=
  let totals := { totals with t := totals.t + defaultBandwidth }
  if isExit && isGuard then
    { totals with d := totals.d + defaultBandwidth, e := totals.e + guardfractionBandwidth }
  else if isExit then { totals with e := totals.e + defaultBandwidth }
  else if isGuard then
    { totals with g := totals.g + defaultBandwidth, m := totals.m + guardfractionBandwidth }
  else { totals with m := totals.m + defaultBandwidth }

def updateTotalBandwidthWeights (double : DoubleRounding) (rs : RsBandwidth)
    (isExit isGuard : Bool) (totals : BwTotals) : Option BwTotals :=
  match rs.bandwidthKb with
  | none => some totals
  | some bandwidthKb =>
    (splitBandwidth double bandwidthKb isGuard rs.guardfractionPercentage).map fun amounts =>
      addToClasses isExit isGuard amounts.1 amounts.2 totals

/-- What the loop over the routers knows about one of them when it counts its bandwidth. -/
structure PlacedRouter where
  isExit : Bool
  isGuard : Bool
  isBadExit : Bool
  measuredGuardfraction : List UInt32
  measuredBwsKb : List UInt32
  bandwidthsKb : List UInt32
  deriving DecidableEq

/-- What the bandwidths of all routers are chosen with. -/
structure BandwidthEnv where
  maxUnmeasuredBwKb : UInt32
  nAuthoritiesMeasuringBandwidth : Nat

/-- The guardfraction and the bandwidth of `rs_out`. -/
def PlacedRouter.rsOut (env : BandwidthEnv) (r : PlacedRouter) : Option RsBandwidth :=
  match chooseGuardfraction r.isGuard r.measuredGuardfraction,
      chooseBandwidth env.maxUnmeasuredBwKb env.nAuthoritiesMeasuringBandwidth r.measuredBwsKb
        r.bandwidthsKb with
  | some guardfraction, some (bandwidthKb, _) => some ⟨bandwidthKb, guardfraction⟩
  | _, _ => none

/-- A turn of the loop over the routers, as far as the totals are concerned. -/
def placeRouter (double : DoubleRounding) (env : BandwidthEnv) (totals : BwTotals)
    (r : PlacedRouter) : Option BwTotals :=
  (r.rsOut env).bind fun rs =>
    updateTotalBandwidthWeights double rs (r.isExit && !r.isBadExit) r.isGuard totals

/-- The totals of a consensus. -/
def consensusTotals (double : DoubleRounding) (env : BandwidthEnv) (placed : List PlacedRouter) :
    Option BwTotals :=
  placed.foldlM (placeRouter double env) BwTotals.start

/-! ## Weights -/

/-- The weights that are computed. -/
structure BwWeights where
  wgg : Int
  wgd : Int
  wmg : Int
  wme : Int
  wmd : Int
  wee : Int
  wed : Int
  deriving DecidableEq

def rangeCheck (weights : List Int) (mx : Int) : Bool := weights.all fun a => 0 ≤ a ∧ a ≤ mx

def checkEq (a b margin : Int) : Bool := if a - b ≥ 0 then a - b ≤ margin else b - a ≤ margin

inductive BwWeightsError
  | noError
  | rangeError
  | sumgError
  | sumeError
  | sumdError
  | balanceMidError
  | balanceEgError
  deriving DecidableEq

/-- `networkstatus_check_weights` with `do_balance` -/
def networkstatusCheckWeights (w : BwWeights) (scale : Int) (totals : BwTotals) (margin : Int) :
    BwWeightsError :=
  if !checkEq (w.wed + w.wmd + w.wgd) scale margin then .sumdError
  else if !checkEq (w.wmg + w.wgg) scale margin then .sumgError
  else if !checkEq (w.wme + w.wee) scale margin then .sumeError
  else if !rangeCheck [w.wgg, w.wgd, w.wmg, w.wme, w.wmd, w.wed, w.wee] scale then .rangeError
  else if !checkEq (w.wgg * totals.g + w.wgd * totals.d) (w.wee * totals.e + w.wed * totals.d)
      ((margin * totals.t).tdiv 3) then .balanceEgError
  else if !checkEq (w.wgg * totals.g + w.wgd * totals.d)
      (totals.m * scale + w.wmd * totals.d + w.wme * totals.e + w.wmg * totals.g)
      ((margin * totals.t).tdiv 3) then .balanceMidError
  else .noError

variable (totals : BwTotals) (weightScale : Int)

/-- The weights where neither guards nor exits are scarce. -/
def weightsCase1 : BwWeights :=
  let wee := (weightScale * (totals.e + totals.g + totals.m)).tdiv (3 * totals.e)
  let wmg := (weightScale * (2 * totals.g - totals.e - totals.m)).tdiv (3 * totals.g)
  { wgd := weightScale.tdiv 3
    wed := weightScale.tdiv 3
    wmd := weightScale.tdiv 3
    wee := wee
    wme := weightScale - wee
    wmg := wmg
    wgg := weightScale - wmg }

/-- Both are scarce, and what is both guard and exit goes to the scarcer one. -/
def weightsCase2a : BwWeights :=
  { wgg := weightScale
    wee := weightScale
    wmg := 0
    wme := 0
    wmd := 0
    wed := if totals.e < totals.g then weightScale else 0
    wgd := if totals.e < totals.g then 0 else weightScale }

def weightsCase2b1 : BwWeights :=
  let wed := (weightScale * (totals.d - 2 * totals.e + 4 * totals.g - 2 * totals.m)).tdiv
    (3 * totals.d)
  { wee := (weightScale * (totals.e - totals.g + totals.m)).tdiv totals.e
    wed := wed
    wme := (weightScale * (totals.g - totals.m)).tdiv totals.e
    wmg := 0
    wgg := weightScale
    wmd := (weightScale - wed).tdiv 2
    wgd := (weightScale - wed).tdiv 2 }

/-- The weights of the cases 2b2 and 2b3. -/
def weightsCase2b2 : BwWeights :=
  let wed := (weightScale * (totals.d - 2 * totals.e + totals.g + totals.m)).tdiv (3 * totals.d)
  let wmd := (weightScale * (totals.d - 2 * totals.m + totals.g + totals.e)).tdiv (3 * totals.d)
  let wmd := if wmd < 0 then 0 else wmd
  { wgg := weightScale
    wee := weightScale
    wed := wed
    wmd := wmd
    wme := 0
    wmg := 0
    wgd := weightScale - wed - wmd }

/-- One is scarce, and stays so with what is both guard and exit. -/
def weightsCase3a : BwWeights :=
  if totals.g < totals.e then
    let wme := if totals.e < totals.m then 0
      else (weightScale * (totals.e - totals.m)).tdiv (2 * totals.e)
    { wgg := weightScale
      wgd := weightScale
      wmd := 0
      wed := 0
      wmg := 0
      wme := wme
      wee := weightScale - wme }
  else
    let wmg := if totals.g < totals.m then 0
      else (weightScale * (totals.g - totals.m)).tdiv (2 * totals.g)
    { wee := weightScale
      wed := weightScale
      wmd := 0
      wgd := 0
      wme := 0
      wmg := wmg
      wgg := weightScale - wmg }

/-- One is scarce, but not with what is both guard and exit. -/
def weightsCase3b : BwWeights :=
  if totals.g < totals.e then
    let wgd := (weightScale * (totals.d - 2 * totals.g + totals.e + totals.m)).tdiv (3 * totals.d)
    let wee := (weightScale * (totals.e + totals.m)).tdiv (2 * totals.e)
    { wgg := weightScale
      wgd := wgd
      wmg := 0
      wee := wee
      wme := weightScale - wee
      wmd := (weightScale - wgd).tdiv 2
      wed := (weightScale - wgd).tdiv 2 }
  else
    let wed := (weightScale * (totals.d - 2 * totals.e + totals.g + totals.m)).tdiv (3 * totals.d)
    let wgg := (weightScale * (totals.g + totals.m)).tdiv (2 * totals.g)
    { wee := weightScale
      wed := wed
      wme := 0
      wgg := wgg
      wmg := weightScale - wgg
      wmd := (weightScale - wed).tdiv 2
      wgd := (weightScale - wed).tdiv 2 }

/-- The weights of the case that the totals are in; nothing where they fail their check. -/
def chooseWeights : Option BwWeights :=
  let check (w : BwWeights) := networkstatusCheckWeights w weightScale totals 10
  if 3 * totals.e ≥ totals.t ∧ 3 * totals.g ≥ totals.t then
    let w := weightsCase1 totals weightScale
    if check w ≠ .noError then none else some w
  else if 3 * totals.e < totals.t ∧ 3 * totals.g < totals.t then
    if min totals.e totals.g + totals.d < max totals.e totals.g then
      some (weightsCase2a totals weightScale)
    else
      let w := weightsCase2b1 totals weightScale
      let w := if check w ≠ .noError then weightsCase2b2 totals weightScale else w
      if check w ≠ .noError ∧ check w ≠ .balanceMidError then none else some w
  else if 3 * (min totals.e totals.g + totals.d) < totals.t then
    some (weightsCase3a totals weightScale)
  else
    let w := weightsCase3b totals weightScale
    if check w ≠ .noError then none else some w

/-- `networkstatus_compute_bw_weights_v10`: the weights where it returns 1. -/
def networkstatusComputeBwWeightsV10 : Option (Option BwWeights) :=
  if totals.g ≤ 0 ∨ totals.m ≤ 0 ∨ totals.e ≤ 0 ∨ totals.d ≤ 0 then some none
  else
    match chooseWeights totals weightScale with
    | none => some none
    | some w => if 0 < weightScale ∧ weightScale ≤ intMaxBandwidth then some (some w) else none

end RendezMix.Source.BandwidthWeights
